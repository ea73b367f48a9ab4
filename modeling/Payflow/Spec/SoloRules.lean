import Payflow.Lib.Solo
import Payflow.Spec.OutboxInserts
import Mathlib.Data.Fintype.EquivFin

/-! # The statements of a transaction that is alone

One rule for each kind of statement: what the rest of the transaction finds after it. -/

namespace Payflow.Spec

open Payflow.Lib Payflow.Model

theorem drawn_of_map {α : Type} {v : Env Pick} {D : Db} {f : Uuid → α} {x : α}
    (h : (drawn v D).map f = some x) : ∃ id, id ∉ D.ids ∧ f id = x := by
  obtain ⟨id, hid, he⟩ := Option.map_eq_some_iff.mp h
  exact ⟨id, not_mem_of_drawn hid, he⟩

section rules

variable {α : Type} {now : ℕ} {D : Db} {Q : Except Exn α → Db → Prop}

theorem solo_read {st : Stmt} {a : SRes st} {k : SRes st → Tx α}
    (hx : ∀ pick, stmtExec ⟨now, pick⟩ D st = some (a, [])) (h : SoloTxn store now Q (k a) D) :
    SoloTxn store now Q (.op st k) D := by
  intro pick r ws hex
  obtain ⟨rfl, rfl⟩ := Prod.mk.inj (Option.some.inj ((hx pick).symm.trans hex))
  exact h

theorem solo_updatePayment {p : Uuid} {row : Payment} {guard : PaymentStatus → Bool}
    {set : ℕ → PaymentCols → PaymentCols} {k : Unit → Tx α} (hrow : D.payment? p = some row)
    (hguard : guard row.status = true)
    (h : SoloTxn store now Q (k ()) (D.apply (.updatePayment p (set now row.toPaymentCols)))) :
    SoloTxn store now Q (.op (.updatePayment p guard set) k) D := by
  intro pick r ws hex
  simp only [store, stmtExec, hrow, Option.filter_some, if_pos hguard] at hex
  obtain ⟨-, rfl⟩ := Prod.mk.inj (Option.some.inj hex)
  exact h

theorem solo_insertPaymentEvent {p : Uuid} {type : EventType} {prev : Option PaymentStatus}
    {new : PaymentStatus} {metadata : Json} {k : Unit → Tx α}
    (h : ∀ id, id ∉ D.ids → SoloTxn store now Q (k ())
      (D.apply (.insertPaymentEvent ⟨id, p, type, prev, new, metadata, now⟩))) :
    SoloTxn store now Q (.op (.insertPaymentEvent p type prev new metadata) k) D := by
  intro pick r ws hex
  obtain ⟨id, hid, he⟩ := drawn_of_map hex
  obtain ⟨-, rfl⟩ := Prod.mk.inj he
  exact h id hid

theorem solo_insertPaymentEventSelect {p : Uuid} {type : EventType} {row : Payment}
    {metadata : Payment → Json} {k : Unit → Tx α} (hrow : D.payment? p = some row)
    (h : ∀ id, id ∉ D.ids → SoloTxn store now Q (k ()) (D.apply (.insertPaymentEvent
      ⟨id, p, type, some row.status, row.status, metadata row, now⟩))) :
    SoloTxn store now Q (.op (.insertPaymentEventSelect p type metadata) k) D := by
  intro pick r ws hex
  simp only [store, stmtExec, hrow] at hex
  obtain ⟨id, hid, he⟩ := drawn_of_map hex
  obtain ⟨-, rfl⟩ := Prod.mk.inj he
  exact h id hid

theorem solo_updateRefund {q : Uuid} {refund : Refund} {guard : RefundStatus → Bool}
    {set : ℕ → RefundCols → RefundCols} {k : Option Refund → Tx α}
    (hrefund : D.refund? q = some refund) (hguard : guard refund.status = true)
    (h : SoloTxn store now Q (k (some { refund with toRefundCols := set now refund.toRefundCols }))
      (D.apply (.updateRefund q (set now refund.toRefundCols)))) :
    SoloTxn store now Q (.op (.updateRefund q guard set) k) D := by
  intro pick r ws hex
  simp only [store, stmtExec, hrefund, Option.filter_some, if_pos hguard] at hex
  obtain ⟨rfl, rfl⟩ := Prod.mk.inj (Option.some.inj hex)
  exact h

theorem solo_insertRefundEvent {q : Uuid} {type : EventType} {prev : Option RefundStatus}
    {new : RefundStatus} {metadata : Json} {k : Unit → Tx α}
    (h : ∀ id, id ∉ D.ids → SoloTxn store now Q (k ())
      (D.apply (.insertRefundEvent ⟨id, q, type, prev, new, metadata, now⟩))) :
    SoloTxn store now Q (.op (.insertRefundEvent q type prev new metadata) k) D := by
  intro pick r ws hex
  obtain ⟨id, hid, he⟩ := drawn_of_map hex
  obtain ⟨-, rfl⟩ := Prod.mk.inj he
  exact h id hid

theorem solo_insertOutboxEvent {aggregate : Uuid} {type : EventType} {payload : Json}
    {k : Unit → Tx α}
    (h : ∀ id, id ∉ D.ids → SoloTxn store now Q (k ())
      (D.apply (.insertOutboxEvent (newOutboxEvent now id aggregate type payload)))) :
    SoloTxn store now Q (.op (.insertOutboxEvent aggregate type payload) k) D := by
  intro pick r ws hex
  obtain ⟨id, hid, he⟩ := drawn_of_map hex
  obtain ⟨-, rfl⟩ := Prod.mk.inj he
  exact h id hid

end rules

/-! ### Answers -/

theorem exists_newId (ids : List Uuid) : ∃ id : Uuid, id ∉ ids := by
  have hinf : Infinite Uuid := .of_injective Uuid.mk fun _ _ h => Uuid.mk.inj h
  obtain ⟨id, hid⟩ := Infinite.exists_notMem_finset ids.toFinset
  exact ⟨id, by simpa using hid⟩

theorem exec_of_drawn {v : Env Pick} {D : Db} {id : Uuid} (hdrawn : drawn v D = some id)
    (st : Stmt) : ∃ r ws, store.exec v D st = some (r, ws) := by
  cases st with
  | updatePayment id' guard set =>
    simp only [store, stmtExec]
    split <;> exact ⟨_, _, rfl⟩
  | updateRefund id' guard set =>
    simp only [store, stmtExec]
    split <;> exact ⟨_, _, rfl⟩
  | insertPaymentEventSelect p type metadata =>
    simp only [store, stmtExec]
    split
    · rw [hdrawn]
      exact ⟨_, _, rfl⟩
    · exact ⟨_, _, rfl⟩
  | insertWebhookEvent e type payload =>
    simp only [store, stmtExec]
    split_ifs
    · exact ⟨_, _, rfl⟩
    · rw [hdrawn]
      exact ⟨_, _, rfl⟩
  | uuid4 | insertPaymentEvent _ _ _ _ _ | insertRefundEvent _ _ _ _ _ | insertOutboxEvent _ _ _ =>
    simp only [store, stmtExec, hdrawn]
    exact ⟨_, _, rfl⟩
  | _ => exact ⟨_, _, rfl⟩

/-- Every statement can be executed, with a new id where it draws one. -/
theorem exists_exec (now : ℕ) (D : Db) (st : Stmt) :
    ∃ pick r ws, store.exec ⟨now, pick⟩ D st = some (r, ws) := by
  obtain ⟨id, hid⟩ := exists_newId D.ids
  have hdrawn : drawn ⟨now, .newId id⟩ D = some id := if_neg hid
  exact ⟨.newId id, exec_of_drawn hdrawn st⟩

end Payflow.Spec
