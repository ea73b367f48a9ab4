import Payflow.Spec.Ledger

/-! # The rows that enter the outbox and the ledger

Every row of `outbox_events` and of `payment_events` has an id of its own: the transaction that
inserts it holds a lock on the id, which no other row has. Its `created_at` is when that transaction
has started, and an outbox row is due from the start. -/

namespace Payflow.Spec

open Payflow.Lib Payflow.Model

/-- The row is as it was inserted. -/
structure NewRow (row : OutboxEvent) : Prop where
  status : row.status = .pending
  attempts : row.attempts = 0
  availableAt : row.availableAt = row.createdAt
  publishedAt : row.publishedAt = none

/-- The outbox rows among the writes of a transaction. -/
def outboxOf (ws : List Write) : List OutboxEvent := ws.filterMap newOutboxEvent?

/-- The row is new, and its id is locked. -/
structure FreshRow (D : Db) (now : ℕ) (ls : List Lock) (row : OutboxEvent) : Prop where
  new : NewRow row
  createdAt : row.createdAt = now
  locked : .newId row.id ∈ ls
  fresh : row.id ∉ D.outboxEvents.map (·.id)

theorem not_mem_of_drawn {v : Env Pick} {D : Db} {id : Uuid} (h : drawn v D = some id) :
    id ∉ D.ids := by
  unfold drawn at h
  split at h
  · split_ifs at h with hid
    exact Option.some.inj h ▸ hid
  · simp at h

/-- What a statement writes: an event or an outbox row with a new id, or something else. -/
inductive StmtWrite (D : Db) (now : ℕ) (ls : List Lock) : Write → Prop
  | paymentEvent {row} : row.createdAt = now → .newId row.id ∈ ls → row.id ∉ D.ids →
      StmtWrite D now ls (.insertPaymentEvent row)
  | outboxEvent {row} : NewRow row → row.createdAt = now → .newId row.id ∈ ls → row.id ∉ D.ids →
      StmtWrite D now ls (.insertOutboxEvent row)
  | other {w} : newPaymentEvent? w = none → newOutboxEvent? w = none → StmtWrite D now ls w

/-- **What a statement writes**: at most one row. -/
theorem stmtWrite_of_exec {v : Env Pick} {D : Db} {o : Stmt} {r : SRes o} {ws : List Write}
    (h : stmtExec v D o = some (r, ws)) :
    ws = [] ∨ ∃ w, ws = [w] ∧ StmtWrite D v.now (stmtLocks v D o) w := by
  cases o with
  | insertOutboxEvent aggregate type payload =>
    obtain ⟨id, hid, hx⟩ := Option.map_eq_some_iff.mp h
    obtain ⟨rfl, rfl⟩ := Prod.mk.inj hx
    exact Or.inr ⟨_, rfl, .outboxEvent ⟨rfl, rfl, rfl, rfl⟩ rfl (by simp [stmtLocks, hid])
      (not_mem_of_drawn hid)⟩
  | insertPaymentEvent p type prev new metadata =>
    obtain ⟨id, hid, hx⟩ := Option.map_eq_some_iff.mp h
    obtain ⟨-, rfl⟩ := Prod.mk.inj hx
    exact Or.inr ⟨_, rfl, .paymentEvent rfl (by simp [stmtLocks, hid]) (not_mem_of_drawn hid)⟩
  | insertPaymentEventSelect p type metadata =>
    simp only [stmtExec] at h
    split at h
    · obtain ⟨id, hid, hx⟩ := Option.map_eq_some_iff.mp h
      obtain ⟨-, rfl⟩ := Prod.mk.inj hx
      exact Or.inr ⟨_, rfl, .paymentEvent rfl (by simp [stmtLocks, hid]) (not_mem_of_drawn hid)⟩
    · obtain ⟨-, rfl⟩ := Prod.mk.inj (Option.some.inj h)
      exact Or.inl rfl
  | insertPayment id m k hash u a c =>
    have hx : execInsertPayment v.now D id m k hash u a c = (r, ws) := Option.some.inj h
    rcases execInsertPayment_cases hx with ⟨e, -, rfl, -⟩ | ⟨-, -, rfl⟩ | ⟨-, -, -, c',
      -, -, rfl⟩
    · exact Or.inl rfl
    · exact Or.inl rfl
    · exact Or.inr ⟨_, rfl, .other rfl rfl⟩
  | insertRefund id p m k a c =>
    have hx : execInsertRefund v.now D id p m k a c = (r, ws) := Option.some.inj h
    rcases execInsertRefund_cases hx with ⟨e, -, rfl, -⟩ | ⟨-, -, -, c', -, -, rfl⟩
    · exact Or.inl rfl
    · exact Or.inr ⟨_, rfl, .other rfl rfl⟩
  | updatePayment | updateRefund =>
    simp only [stmtExec] at h
    split at h
    · obtain ⟨-, rfl⟩ := Prod.mk.inj (Option.some.inj h)
      exact Or.inr ⟨_, rfl, .other rfl rfl⟩
    · obtain ⟨-, rfl⟩ := Prod.mk.inj (Option.some.inj h)
      exact Or.inl rfl
  | insertWebhookEvent =>
    simp only [stmtExec] at h
    split_ifs at h
    · obtain ⟨-, rfl⟩ := Prod.mk.inj (Option.some.inj h)
      exact Or.inl rfl
    · obtain ⟨id, -, hx⟩ := Option.map_eq_some_iff.mp h
      obtain ⟨-, rfl⟩ := Prod.mk.inj hx
      exact Or.inr ⟨_, rfl, .other rfl rfl⟩
  | uuid4 =>
    obtain ⟨id, -, hx⟩ := Option.map_eq_some_iff.mp h
    obtain ⟨-, rfl⟩ := Prod.mk.inj hx
    exact Or.inl rfl
  | insertRefundEvent =>
    obtain ⟨id, -, hx⟩ := Option.map_eq_some_iff.mp h
    obtain ⟨-, rfl⟩ := Prod.mk.inj hx
    exact Or.inr ⟨_, rfl, .other rfl rfl⟩
  | _ =>
    obtain ⟨-, rfl⟩ := Prod.mk.inj (Option.some.inj h)
    exact Or.inl rfl

/-! ### The two tables -/

/-- `outbox_events`. -/
def outboxTable : KeyedTable Db Write Lock OutboxEvent Uuid where
  rows := Db.outboxEvents
  new? := newOutboxEvent?
  key row := row.id
  lock := .newId
  Given now row := NewRow row ∧ row.createdAt = now

/-- `payment_events`. -/
def paymentEventTable : KeyedTable Db Write Lock PaymentEvent Uuid where
  rows := Db.paymentEvents
  new? := newPaymentEvent?
  key row := row.id
  lock := .newId
  Given now row := row.createdAt = now

theorem outboxTable_lawful : outboxTable.Lawful store where
  apply D w := by cases w <;> simp [outboxTable, store, Db.apply, newOutboxEvent?]
  exec := by
    intro v D st r ws hx
    obtain rfl | ⟨w, rfl, hw⟩ := stmtWrite_of_exec hx
    · exact Or.inl rfl
    cases hw with
    | paymentEvent => exact Or.inl rfl
    | @outboxEvent row hnew hcreated hlocked hid =>
      refine Or.inr ⟨row, rfl, ⟨hnew, hcreated⟩, hlocked, fun hmem => hid ?_⟩
      exact List.mem_append_right _ hmem
    | other _ hw => exact Or.inl (by simp [KeyedTable.newRows, outboxTable, hw])

theorem paymentEventTable_lawful : paymentEventTable.Lawful store where
  apply D w := by cases w <;> simp [paymentEventTable, store, Db.apply, newPaymentEvent?]
  exec := by
    intro v D st r ws hx
    obtain rfl | ⟨w, rfl, hw⟩ := stmtWrite_of_exec hx
    · exact Or.inl rfl
    cases hw with
    | outboxEvent => exact Or.inl rfl
    | @paymentEvent row hcreated hlocked hid =>
      refine Or.inr ⟨row, rfl, hcreated, hlocked, fun hmem => hid ?_⟩
      simp only [Db.ids, List.mem_append]
      exact Or.inl (Or.inl (Or.inl (Or.inr hmem)))
    | other hw _ => exact Or.inl (by simp [KeyedTable.newRows, paymentEventTable, hw])

/-! ### Along a run -/

/-- The outbox and what open transactions will add to it. -/
structure OutboxNew {P : Platform} (s : State P) : Prop where
  ids : (s.db.outboxEvents.map (·.id)).Nodup
  rows : ∀ row ∈ s.db.outboxEvents, NewRow row ∧ row.createdAt ≤ s.clock
  open_ids : ∀ (i : ℕ) x b (t : Txn Write Lock Stmt SRes Exn (BRes b)) k,
    s.procs[i]? = some ⟨x, .inTxn b t k⟩ → ((outboxOf t.writes).map (·.id)).Nodup
  open_rows : ∀ (i : ℕ) x b (t : Txn Write Lock Stmt SRes Exn (BRes b)) k,
    s.procs[i]? = some ⟨x, .inTxn b t k⟩ → ∀ row ∈ outboxOf t.writes,
      FreshRow s.db t.now t.locks row

variable {P : Platform} {s s' : State P}

/-- **The rows of the outbox** in every state that is reached. -/
theorem outboxNew_of_reachable (h : Reachable P s) : OutboxNew s := by
  have hn : outboxTable.Inserted s :=
    KeyedTable.inserted_of_reachable outboxTable_lawful (fulfils P) (good_init P) rfl rfl h
  refine ⟨hn.keys, fun row hrow => ?_, hn.open_keys, fun i x b t k hp row hrow => ?_⟩
  · obtain ⟨now, hnow, hnew, rfl⟩ := hn.rows row hrow
    exact ⟨hnew, hnow⟩
  · obtain ⟨⟨hnew, hcreated⟩, hlocked, hfresh⟩ := hn.open_rows i x b t k hp row hrow
    exact ⟨hnew, hcreated, hlocked, hfresh⟩

/-- **The rows of the ledger** likewise. -/
theorem paymentEvents_inserted (h : Reachable P s) : paymentEventTable.Inserted s :=
  KeyedTable.inserted_of_reachable paymentEventTable_lawful (fulfils P) (good_init P) rfl rfl h

end Payflow.Spec
