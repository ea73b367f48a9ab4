import Payflow.Model.Sql

/-! # What every committed transaction keeps

`Inv` is the well-formedness of the committed database: the unique constraints, the foreign key of
`refunds`, and that a `REFUNDED` payment is refunded in full. `Le` is how the database may change:
payments and refunds are never deleted, the columns that are set once stay as they are, the status
of a refund only moves forward, and a payment becomes `REFUND_PENDING` only with a new refund.
`Same` is what each lock protects; the lock on a payment also protects which refunds it has, since
the foreign key of a new refund needs it. -/

namespace Payflow.Spec

open Payflow.Lib Payflow.Model

/-! ### The order of the rows -/

/-- The statuses of a refund move forward. -/
def RefundStatus.Le (a b : RefundStatus) : Prop :=
  a = b ∨ a = .created ∨ (a = .processing ∧ b ≠ .created)

theorem RefundStatus.Le.refl (a : RefundStatus) : RefundStatus.Le a a := Or.inl rfl

theorem RefundStatus.Le.trans {a b c : RefundStatus} (h : RefundStatus.Le a b)
    (h' : RefundStatus.Le b c) : RefundStatus.Le a c := by
  unfold RefundStatus.Le at *
  cases a <;> cases b <;> cases c <;> simp_all

/-- A later version of a payment. -/
def PaymentLe (p q : Payment) : Prop := ∃ cols, q = { p with toPaymentCols := cols }

/-- A later version of a refund. -/
def RefundLe (r q : Refund) : Prop :=
  ∃ cols, q = { r with toRefundCols := cols } ∧ RefundStatus.Le r.status cols.status

theorem PaymentLe.refl (p : Payment) : PaymentLe p p := ⟨p.toPaymentCols, rfl⟩

theorem PaymentLe.trans (p q r : Payment) : PaymentLe p q → PaymentLe q r → PaymentLe p r := by
  rintro ⟨c, rfl⟩ ⟨d, rfl⟩
  exact ⟨d, rfl⟩

theorem RefundLe.refl (r : Refund) : RefundLe r r := ⟨r.toRefundCols, rfl, .refl _⟩

theorem RefundLe.trans (r q t : Refund) : RefundLe r q → RefundLe q t → RefundLe r t := by
  rintro ⟨c, rfl, h⟩ ⟨d, rfl, h'⟩
  exact ⟨d, rfl, h.trans h'⟩

/-! ### The relations on the database -/

/-- The committed database is well formed. -/
structure Inv (D : Db) : Prop where
  payment_ids : (D.payments.map (·.id)).Nodup
  payment_keys : (D.payments.map fun p => (p.merchantId, p.idempotencyKey)).Nodup
  refund_ids : (D.refunds.map (·.id)).Nodup
  refund_keys : (D.refunds.map fun r => (r.merchantId, r.idempotencyKey)).Nodup
  refund_payment : ∀ r ∈ D.refunds, ∃ p ∈ D.payments, p.id = r.paymentId
  refunded_total : ∀ p ∈ D.payments, p.status = .refunded →
    p.amountCents ≤ D.refundTotal [.succeeded] p.id

/-- The rows are kept, in later versions. -/
structure Grown (D D' : Db) : Prop where
  payments : Grows PaymentLe D.payments D'.payments
  refunds : Grows RefundLe D.refunds D'.refunds

/-- A transaction may change the database so. -/
structure Le (D D' : Db) : Prop extends Grown D D' where
  pending : ∀ p row row', D.payment? p = some row → D'.payment? p = some row' →
    row'.status = .refundPending →
      row.status = .refundPending ∨ (D.refundsOf p).length < (D'.refundsOf p).length

/-- What a lock protects is the same in both databases. -/
def Same : Lock → Db → Db → Prop
  | .payment id, D, D' => D.payment? id = D'.payment? id ∧
      (D.refundsOf id).map (·.id) = (D'.refundsOf id).map (·.id)
  | .refund id, D, D' => D.refund? id = D'.refund? id
  | .paymentKey m k, D, D' => (D.paymentByKey? m k).isSome = (D'.paymentByKey? m k).isSome
  | .refundKey m k, D, D' => (D.refundByKey? m k).isSome = (D'.refundByKey? m k).isSome
  | .webhookKey e, D, D' => (D.webhookEvents.any fun w => w.providerEventId = e) =
      D'.webhookEvents.any fun w => w.providerEventId = e
  | .newId id, D, D' => id ∈ D.ids ↔ id ∈ D'.ids

/-- What every committed transaction keeps. -/
def rely : Rely Db Lock := ⟨Inv, Le, Same⟩

theorem Grown.refl (D : Db) : Grown D D := ⟨.refl .refl _, .refl .refl _⟩

theorem Grown.trans {D₁ D₂ D₃ : Db} (h : Grown D₁ D₂) (h' : Grown D₂ D₃) : Grown D₁ D₃ :=
  ⟨h.payments.trans PaymentLe.trans h'.payments, h.refunds.trans RefundLe.trans h'.refunds⟩

theorem PaymentLe.id_eq {p q : Payment} (h : PaymentLe p q) : q.id = p.id := by
  obtain ⟨cols, rfl⟩ := h
  rfl

theorem RefundLe.id_eq {p q : Refund} (h : RefundLe p q) : q.id = p.id := by
  obtain ⟨cols, rfl, -⟩ := h
  rfl

theorem Grown.payment {D D' : Db} (h : Grown D D') {p : Uuid} {row : Payment}
    (hp : D.payment? p = some row) : ∃ row', D'.payment? p = some row' ∧ PaymentLe row row' :=
  h.payments.find? (fun a b hab => by rw [hab.id_eq]) hp

theorem Grown.refund {D D' : Db} (h : Grown D D') {r : Uuid} {row : Refund}
    (hr : D.refund? r = some row) : ∃ row', D'.refund? r = some row' ∧ RefundLe row row' :=
  h.refunds.find? (fun a b hab => by rw [hab.id_eq]) hr

theorem Grown.paymentByKey {D D' : Db} (h : Grown D D') {m k : String} {row : Payment}
    (hp : D.paymentByKey? m k = some row) :
    ∃ row', D'.paymentByKey? m k = some row' ∧ PaymentLe row row' := by
  refine h.payments.find? (fun a b hab => ?_) hp
  obtain ⟨cols, rfl⟩ := hab
  rfl

theorem Grown.refundByKey {D D' : Db} (h : Grown D D') {m k : String} {row : Refund}
    (hp : D.refundByKey? m k = some row) :
    ∃ row', D'.refundByKey? m k = some row' ∧ RefundLe row row' := by
  refine h.refunds.find? (fun a b hab => ?_) hp
  obtain ⟨cols, rfl, -⟩ := hab
  rfl

theorem Grown.refundsOf {D D' : Db} (h : Grown D D') (p : Uuid) :
    Grows RefundLe (D.refundsOf p) (D'.refundsOf p) :=
  h.refunds.filter fun a b ⟨cols, hb, _⟩ => by rw [hb]

theorem Le.refl (D : Db) : Le D D := by
  refine ⟨.refl D, fun p row row' hp hp' hs => ?_⟩
  obtain rfl := Option.some.inj (hp.symm.trans hp')
  exact Or.inl hs

theorem Le.trans {D₁ D₂ D₃ : Db} (h : Le D₁ D₂) (h' : Le D₂ D₃) : Le D₁ D₃ := by
  refine ⟨h.toGrown.trans h'.toGrown, fun p row₁ row₃ hp₁ hp₃ hs => ?_⟩
  obtain ⟨row₂, hp₂, -⟩ := h.payment hp₁
  have hlen₁ := (h.toGrown.refundsOf p).length_le
  have hlen₂ := (h'.toGrown.refundsOf p).length_le
  rcases h'.pending p row₂ row₃ hp₂ hp₃ hs with hs | hlt
  · rcases h.pending p row₁ row₂ hp₁ hp₂ hs with hs | hlt
    · exact Or.inl hs
    · exact Or.inr (by omega)
  · exact Or.inr (by omega)

/-! ### What the writes touch -/

/-- The locks whose protection a write breaks. -/
def touches : Write → List Lock
  | .insertPayment row =>
    [.paymentKey row.merchantId row.idempotencyKey, .newId row.id, .payment row.id]
  | .updatePayment id _ => [.payment id]
  | .insertPaymentEvent row => [.newId row.id]
  | .insertWebhookEvent row => [.webhookKey row.providerEventId, .newId row.id]
  | .insertOutboxEvent row => [.newId row.id]
  | .insertRefund row => [.refundKey row.merchantId row.idempotencyKey, .newId row.id,
      .refund row.id, .payment row.paymentId]
  | .updateRefund id _ => [.refund id]
  | .insertRefundEvent row => [.newId row.id]

theorem payment?_insert {D : Db} {row : Payment} {id : Uuid} (h : row.id ≠ id) :
    (D.apply (.insertPayment row)).payment? id = D.payment? id := by
  simp [Db.payment?, Db.apply, List.find?_append, h]

theorem payment?_insert_self {D : Db} {row : Payment} (h : D.payment? row.id = none) :
    (D.apply (.insertPayment row)).payment? row.id = some row := by
  unfold Db.payment? at h
  simp [Db.payment?, Db.apply, List.find?_append, h]

theorem paymentByKey?_insert {D : Db} {row : Payment} {m k : String}
    (h : (row.merchantId, row.idempotencyKey) ≠ (m, k)) :
    (D.apply (.insertPayment row)).paymentByKey? m k = D.paymentByKey? m k := by
  simp only [Db.paymentByKey?, Db.apply, List.find?_append, List.find?_cons, h, decide_false,
    List.find?_nil, Option.or_none]

theorem refund?_insert {D : Db} {row : Refund} {id : Uuid} (h : row.id ≠ id) :
    (D.apply (.insertRefund row)).refund? id = D.refund? id := by
  simp [Db.refund?, Db.apply, List.find?_append, h]

theorem refund?_insert_self {D : Db} {row : Refund} (h : D.refund? row.id = none) :
    (D.apply (.insertRefund row)).refund? row.id = some row := by
  unfold Db.refund? at h
  simp [Db.refund?, Db.apply, List.find?_append, h]

theorem refundByKey?_insert {D : Db} {row : Refund} {m k : String}
    (h : (row.merchantId, row.idempotencyKey) ≠ (m, k)) :
    (D.apply (.insertRefund row)).refundByKey? m k = D.refundByKey? m k := by
  simp only [Db.refundByKey?, Db.apply, List.find?_append, List.find?_cons, h, decide_false,
    List.find?_nil, Option.or_none]

theorem payment?_update (D : Db) (id id' : Uuid) (cols : PaymentCols) :
    (D.apply (.updatePayment id cols)).payment? id' =
      (D.payment? id').map fun p => if p.id = id then { p with toPaymentCols := cols } else p := by
  have := find?_setWhere (p := fun p : Payment => p.id = id) (q := fun p => p.id = id')
    (f := fun p => { p with toPaymentCols := cols }) (fun _ => rfl) D.payments
  simpa [Db.payment?, Db.apply] using this

theorem payment?_update_self {D : Db} {id : Uuid} {row : Payment} (h : D.payment? id = some row)
    (cols : PaymentCols) :
    (D.apply (.updatePayment id cols)).payment? id = some { row with toPaymentCols := cols } := by
  have hid : row.id = id := (find?_key h).2
  simp [payment?_update, h, hid]

theorem refund?_update (D : Db) (id id' : Uuid) (cols : RefundCols) :
    (D.apply (.updateRefund id cols)).refund? id' =
      (D.refund? id').map fun r => if r.id = id then { r with toRefundCols := cols } else r := by
  have := find?_setWhere (p := fun r : Refund => r.id = id) (q := fun r => r.id = id')
    (f := fun r => { r with toRefundCols := cols }) (fun _ => rfl) D.refunds
  simpa [Db.refund?, Db.apply] using this

theorem refund?_update_self {D : Db} {id : Uuid} {row : Refund} (h : D.refund? id = some row)
    (cols : RefundCols) :
    (D.apply (.updateRefund id cols)).refund? id = some { row with toRefundCols := cols } := by
  have hid : row.id = id := (find?_key h).2
  simp [refund?_update, h, hid]

theorem paymentByKey?_update (D : Db) (id : Uuid) (m k : String) (cols : PaymentCols) :
    (D.apply (.updatePayment id cols)).paymentByKey? m k = (D.paymentByKey? m k).map fun p =>
      if p.id = id then { p with toPaymentCols := cols } else p := by
  have := find?_setWhere (p := fun p : Payment => p.id = id)
    (q := fun p => (p.merchantId, p.idempotencyKey) = (m, k))
    (f := fun p => { p with toPaymentCols := cols }) (fun _ => rfl) D.payments
  simpa only [Db.paymentByKey?, Db.apply, decide_eq_true_eq] using this

theorem refundByKey?_update (D : Db) (id : Uuid) (m k : String) (cols : RefundCols) :
    (D.apply (.updateRefund id cols)).refundByKey? m k = (D.refundByKey? m k).map fun r =>
      if r.id = id then { r with toRefundCols := cols } else r := by
  have := find?_setWhere (p := fun r : Refund => r.id = id)
    (q := fun r => (r.merchantId, r.idempotencyKey) = (m, k))
    (f := fun r => { r with toRefundCols := cols }) (fun _ => rfl) D.refunds
  simpa only [Db.refundByKey?, Db.apply, decide_eq_true_eq] using this

/-- The columns of the refunds of a payment that an `UPDATE` does not set. -/
theorem refundsOf_ids_update (D : Db) (id p : Uuid) (cols : RefundCols) :
    ((D.apply (.updateRefund id cols)).refundsOf p).map (·.id) = (D.refundsOf p).map (·.id) := by
  have h := filter_setWhere (p := fun r : Refund => r.id = id) (q := fun r => r.paymentId = p)
    (f := fun r => { r with toRefundCols := cols }) (fun _ => rfl) D.refunds
  simp only [Db.refundsOf, Db.apply, h]
  exact map_setWhere fun _ => rfl

theorem ids_updatePayment (D : Db) (id : Uuid) (cols : PaymentCols) :
    (D.apply (.updatePayment id cols)).ids = D.ids := by
  have h : (D.apply (.updatePayment id cols)).payments.map (·.id) = D.payments.map (·.id) :=
    map_setWhere fun _ => rfl
  simp only [Db.ids, h]
  rfl

theorem ids_updateRefund (D : Db) (id : Uuid) (cols : RefundCols) :
    (D.apply (.updateRefund id cols)).ids = D.ids := by
  have h : (D.apply (.updateRefund id cols)).refunds.map (·.id) = D.refunds.map (·.id) :=
    map_setWhere fun _ => rfl
  simp only [Db.ids, h]
  rfl

/-- A write leaves alone what the locks it does not touch protect. -/
theorem same_apply (D : Db) {w : Write} {l : Lock} (h : l ∉ touches w) : Same l D (D.apply w) := by
  cases w with
  | insertPayment row =>
    simp only [touches, List.mem_cons, List.not_mem_nil, or_false, not_or] at h
    cases l with
    | payment id => exact ⟨(payment?_insert fun he => h.2.2 (by rw [he])).symm, rfl⟩
    | paymentKey m k =>
      have hk : (row.merchantId, row.idempotencyKey) ≠ (m, k) := by
        rintro ⟨⟩
        exact h.1 rfl
      exact (congrArg Option.isSome (paymentByKey?_insert hk)).symm
    | newId id =>
      have hi : id ≠ row.id := fun he => h.2.1 (by rw [he])
      simp [Same, Db.ids, Db.apply, hi]
    | refund id => rfl
    | refundKey m k => rfl
    | webhookKey e => rfl
  | updatePayment id cols =>
    simp only [touches, List.mem_singleton] at h
    cases l with
    | payment id' =>
      refine ⟨?_, rfl⟩
      rw [payment?_update]
      cases hp : D.payment? id' with
      | none => rfl
      | some p =>
        have hid : p.id = id' := (find?_key hp).2
        have : p.id ≠ id := fun he => h (by rw [← he, hid])
        simp [this]
    | paymentKey m k => simp only [Same, paymentByKey?_update, Option.isSome_map]
    | newId id' => simp only [Same, ids_updatePayment]
    | refund id' => rfl
    | refundKey m k => rfl
    | webhookKey e => rfl
  | insertRefund row =>
    simp only [touches, List.mem_cons, List.not_mem_nil, or_false, not_or] at h
    cases l with
    | payment id =>
      have hp : row.paymentId ≠ id := fun he => h.2.2.2 (by rw [he])
      refine ⟨rfl, ?_⟩
      simp [Db.refundsOf, Db.apply, hp]
    | refund id => exact (refund?_insert fun he => h.2.2.1 (by rw [he])).symm
    | refundKey m k =>
      have hk : (row.merchantId, row.idempotencyKey) ≠ (m, k) := by
        rintro ⟨⟩
        exact h.1 rfl
      exact (congrArg Option.isSome (refundByKey?_insert hk)).symm
    | newId id =>
      have hi : id ≠ row.id := fun he => h.2.1 (by rw [he])
      simp [Same, Db.ids, Db.apply, hi]
    | paymentKey m k => rfl
    | webhookKey e => rfl
  | updateRefund id cols =>
    simp only [touches, List.mem_singleton] at h
    cases l with
    | payment id' => exact ⟨rfl, (refundsOf_ids_update D id id' cols).symm⟩
    | refund id' =>
      show D.refund? id' = _
      rw [refund?_update]
      cases hr : D.refund? id' with
      | none => rfl
      | some r =>
        have hid : r.id = id' := (find?_key hr).2
        have : r.id ≠ id := fun he => h (by rw [← he, hid])
        simp [this]
    | refundKey m k => simp only [Same, refundByKey?_update, Option.isSome_map]
    | newId id' => simp only [Same, ids_updateRefund]
    | paymentKey m k => rfl
    | webhookKey e => rfl
  | insertWebhookEvent row =>
    simp only [touches, List.mem_cons, List.not_mem_nil, or_false, not_or] at h
    cases l with
    | webhookKey e =>
      have he : row.providerEventId ≠ e := fun he => h.1 (by rw [he])
      simp [Same, Db.apply, he]
    | newId id =>
      have hi : id ≠ row.id := fun he => h.2 (by rw [he])
      simp [Same, Db.ids, Db.apply, hi]
    | payment id => exact ⟨rfl, rfl⟩
    | _ => rfl
  | insertPaymentEvent row | insertOutboxEvent row | insertRefundEvent row =>
    simp only [touches, List.mem_singleton] at h
    cases l with
    | newId id =>
      have hi : id ≠ row.id := fun he => h (by rw [he])
      simp [Same, Db.ids, Db.apply, hi]
    | payment id => exact ⟨rfl, rfl⟩
    | _ => rfl

/-- An exception of psycopg. -/
def isDatabaseError : Exn → Bool
  | .uniqueViolation _ | .notNullViolation _ | .checkViolation _ | .dataError _
  | .programmingError _ => true
  | _ => false

theorem varchar_error {n : ℕ} {s : String} {e : Exn} (h : varchar n s = .error e) :
    ∃ message, e = .dataError message := by
  unfold varchar at h
  split_ifs at h
  exact ⟨_, (Except.error.inj h).symm⟩

/-- What inserting a payment can do: fail, find the key taken, or add the row. -/
theorem execInsertPayment_cases {now : ℕ} {D : Db} {id : Uuid} {m k hash u : String} {a : ℕ}
    {c : String} {r : Except Exn (Option Payment)} {ws : List Write}
    (h : execInsertPayment now D id m k hash u a c = (r, ws)) :
    (∃ e, r = .error e ∧ ws = [] ∧ isDatabaseError e = true) ∨
    ((D.paymentByKey? m k).isSome = true ∧ r = .ok none ∧ ws = []) ∨
    (D.paymentByKey? m k = none ∧ D.payment? id = none ∧ 0 < a ∧ ∃ c', varchar 3 c = .ok c' ∧
      r = .ok (some (newPayment now id m k hash u a c')) ∧
      ws = [.insertPayment (newPayment now id m k hash u a c')]) := by
  unfold execInsertPayment at h
  split at h
  · obtain ⟨rfl, rfl⟩ := Prod.mk.inj h
    exact .inl ⟨_, rfl, rfl, rfl⟩
  cases hc : varchar 3 c with
  | error e =>
    simp only [hc] at h
    obtain ⟨rfl, rfl⟩ := Prod.mk.inj h
    obtain ⟨message, rfl⟩ := varchar_error hc
    exact .inl ⟨_, rfl, rfl, rfl⟩
  | ok c' =>
    simp only [hc] at h
    split_ifs at h with h₁ h₂ h₃ <;> obtain ⟨rfl, rfl⟩ := Prod.mk.inj h
    · exact .inl ⟨_, rfl, rfl, rfl⟩
    · exact .inr (.inl ⟨h₂, rfl, rfl⟩)
    · exact .inl ⟨_, rfl, rfl, rfl⟩
    · exact .inr (.inr ⟨by simpa using h₂, by simpa using h₃, Nat.pos_of_ne_zero h₁, c', rfl, rfl,
        rfl⟩)

/-- What inserting a refund can do: fail, in one way for a key that is taken, or add the row. -/
theorem execInsertRefund_cases {now : ℕ} {D : Db} {id p : Uuid} {m k : String} {a : ℕ}
    {c : String} {r : Except Exn Refund} {ws : List Write}
    (h : execInsertRefund now D id p m k a c = (r, ws)) :
    (∃ e, r = .error e ∧ ws = [] ∧ isDatabaseError e = true ∧
      (e = .uniqueViolation "refunds_merchant_idempotency_unique" →
        (D.refundByKey? m k).isSome = true)) ∨
    (D.refundByKey? m k = none ∧ D.refund? id = none ∧ 0 < a ∧ ∃ c', varchar 3 c = .ok c' ∧
      r = .ok (newRefund now id p m k a c') ∧
      ws = [.insertRefund (newRefund now id p m k a c')]) := by
  unfold execInsertRefund at h
  split at h
  · obtain ⟨rfl, rfl⟩ := Prod.mk.inj h
    exact .inl ⟨_, rfl, rfl, rfl, by simp⟩
  split at h
  · obtain ⟨rfl, rfl⟩ := Prod.mk.inj h
    exact .inl ⟨_, rfl, rfl, rfl, by simp⟩
  cases hc : varchar 3 c with
  | error e =>
    simp only [hc] at h
    obtain ⟨rfl, rfl⟩ := Prod.mk.inj h
    obtain ⟨message, rfl⟩ := varchar_error hc
    exact .inl ⟨_, rfl, rfl, rfl, by simp⟩
  | ok c' =>
    simp only [hc] at h
    split_ifs at h with h₁ h₂ h₃ <;> obtain ⟨rfl, rfl⟩ := Prod.mk.inj h
    · exact .inl ⟨_, rfl, rfl, rfl, by simp⟩
    · exact .inl ⟨_, rfl, rfl, rfl, by simp⟩
    · exact .inl ⟨_, rfl, rfl, rfl, fun _ => h₃⟩
    · exact .inr ⟨by simpa using h₃, by simpa using h₂, Nat.pos_of_ne_zero h₁, c', rfl, rfl, rfl⟩

theorem touches_locks {v : Env Pick} {D : Db} {s : Stmt} {r : SRes s} {ws : List Write}
    (h : stmtExec v D s = some (r, ws)) : ∀ w ∈ ws, touches w ⊆ stmtLocks v D s := by
  cases s with
  | insertPayment id m k hash u a c =>
    have hx : execInsertPayment v.now D id m k hash u a c = (r, ws) := Option.some.inj h
    rcases execInsertPayment_cases hx with ⟨e, -, rfl, -⟩ | ⟨-, -, rfl⟩ | ⟨hk, -, -, c', -, -, rfl⟩
    · simp
    · simp
    · simp [touches, newPayment, stmtLocks, hk]
  | insertRefund id p m k a c =>
    have hx : execInsertRefund v.now D id p m k a c = (r, ws) := Option.some.inj h
    rcases execInsertRefund_cases hx with ⟨e, -, rfl, -⟩ | ⟨hk, -, -, c', -, -, rfl⟩
    · simp
    · simp [touches, newRefund, stmtLocks, hk]
  | updatePayment id guard set =>
    simp only [stmtExec] at h
    split at h <;> obtain ⟨-, rfl⟩ := Prod.mk.inj (Option.some.inj h)
    · rename_i p hp
      have hid : p.id = id := (find?_key (Option.filter_eq_some_iff.mp hp).1).2
      simp [touches, stmtLocks, hp, hid]
    · simp
  | updateRefund id guard set =>
    simp only [stmtExec] at h
    split at h <;> obtain ⟨-, rfl⟩ := Prod.mk.inj (Option.some.inj h)
    · rename_i r' hr
      have hid : r'.id = id := (find?_key (Option.filter_eq_some_iff.mp hr).1).2
      simp [touches, stmtLocks, hr, hid]
    · simp
  | insertPaymentEvent p type prev new metadata | insertRefundEvent r type prev new metadata
  | insertOutboxEvent aggregate type payload =>
    obtain ⟨id, hid, hx⟩ := Option.map_eq_some_iff.mp h
    obtain ⟨-, rfl⟩ := Prod.mk.inj hx
    simp [touches, stmtLocks, hid]
  | insertPaymentEventSelect p type metadata =>
    simp only [stmtExec] at h
    split at h
    · obtain ⟨id, hid, hx⟩ := Option.map_eq_some_iff.mp h
      obtain ⟨-, rfl⟩ := Prod.mk.inj hx
      simp [touches, stmtLocks, hid]
    · obtain ⟨-, rfl⟩ := Prod.mk.inj (Option.some.inj h)
      simp
  | insertWebhookEvent e type payload =>
    simp only [stmtExec] at h
    split_ifs at h with he
    · obtain ⟨-, rfl⟩ := Prod.mk.inj (Option.some.inj h)
      simp
    · obtain ⟨id, hid, hx⟩ := Option.map_eq_some_iff.mp h
      obtain ⟨-, rfl⟩ := Prod.mk.inj hx
      simp [touches, stmtLocks, hid, he]
  | uuid4 =>
    obtain ⟨id, -, hx⟩ := Option.map_eq_some_iff.mp h
    obtain ⟨-, rfl⟩ := Prod.mk.inj hx
    simp
  | _ =>
    obtain ⟨-, rfl⟩ := Prod.mk.inj (Option.some.inj h)
    simp

/-- **The laws of the store.** -/
theorem rely_lawful : rely.Lawful store where
  le_refl := Le.refl
  le_trans := Le.trans
  same_refl l D := by cases l <;> simp [rely, Same]
  same_trans {l _ _ _} h h' := by
    cases l with
    | payment id => exact ⟨h.1.trans h'.1, h.2.trans h'.2⟩
    | newId id => exact Iff.trans h h'
    | _ => exact Eq.trans h h'
  frame h w hw l hl D' := same_apply D' fun hl' => hl (touches_locks h w hw hl')

end Payflow.Spec
