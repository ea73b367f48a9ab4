import Payflow.Lib.Catalog
import Payflow.Lib.Prog

/-! # migrate.py

The scripts `app/schema.sql` and `migrations/004_create_refunds.sql`, and `run_migrations`, which
runs in one transaction: where it fails, or the connection is lost, nothing has happened. Of the
tables there is what a script can trip over: columns with their types, keys, foreign keys and
indexes, not defaults or checks. -/

namespace Payflow.Model

open Payflow.Lib

/-! ### The scripts -/

/-- A column of a built-in type. -/
def col (name type : String) : Column := ⟨name, .builtin type⟩

def paymentsTable : TableDef where
  columns := [col "id" "UUID", col "merchant_id" "TEXT", col "idempotency_key" "TEXT",
    col "request_hash" "TEXT", col "user_id" "TEXT", col "amount_cents" "BIGINT",
    col "currency" "VARCHAR(3)", ⟨"status", .named "payment_status"⟩,
    col "provider_payment_id" "TEXT", col "failure_code" "TEXT", col "retry_count" "INTEGER",
    col "version" "INTEGER", col "created_at" "TIMESTAMPTZ", col "updated_at" "TIMESTAMPTZ"]
  keys := [["id"], ["merchant_id", "idempotency_key"]]
  foreignKeys := []

def paymentEventsTable : TableDef where
  columns := [col "id" "UUID", col "payment_id" "UUID", col "event_type" "TEXT",
    ⟨"previous_status", .named "payment_status"⟩, ⟨"new_status", .named "payment_status"⟩,
    col "metadata" "JSONB", col "created_at" "TIMESTAMPTZ"]
  keys := [["id"]]
  foreignKeys := [⟨"payment_id", "payments", "id"⟩]

def webhookEventsTable : TableDef where
  columns := [col "id" "UUID", col "provider_event_id" "TEXT", col "event_type" "TEXT",
    col "payload" "JSONB", col "processed" "BOOLEAN", col "received_at" "TIMESTAMPTZ",
    col "processed_at" "TIMESTAMPTZ"]
  keys := [["id"], ["provider_event_id"]]
  foreignKeys := []

def outboxEventsTable : TableDef where
  columns := [col "id" "UUID", col "aggregate_id" "UUID", col "event_type" "TEXT",
    col "payload" "JSONB", col "status" "TEXT", col "attempts" "INTEGER",
    col "available_at" "TIMESTAMPTZ", col "created_at" "TIMESTAMPTZ",
    col "published_at" "TIMESTAMPTZ"]
  keys := [["id"]]
  foreignKeys := []

/-- `app/schema.sql`. -/
def schemaSql : List DdlStmt :=
  [.dropTable "outbox_events",
    .dropTable "webhook_events",
    .dropTable "payment_events",
    .dropTable "payments",
    .dropType "payment_status",
    .createType "payment_status"
      ["CREATED", "PROCESSING", "SUCCEEDED", "FAILED", "REFUND_PENDING", "REFUNDED"],
    .createTable false "payments" paymentsTable [],
    .createTable false "payment_events" paymentEventsTable [],
    .createTable false "webhook_events" webhookEventsTable [],
    .createTable false "outbox_events" outboxEventsTable [],
    .createIndex false "idx_payments_user_id" "payments" ["user_id"],
    .createIndex false "idx_payments_status" "payments" ["status"],
    .createIndex false "idx_payment_events_payment" "payment_events" ["payment_id", "created_at"],
    .createIndex false "idx_outbox_pending" "outbox_events" ["status", "available_at"]]

def refundsTable : TableDef where
  columns := [col "id" "UUID", col "payment_id" "UUID", col "merchant_id" "TEXT",
    col "idempotency_key" "VARCHAR(255)", col "amount_cents" "BIGINT", col "currency" "VARCHAR(3)",
    col "status" "VARCHAR(30)", col "provider_refund_id" "VARCHAR(255)",
    col "failure_code" "VARCHAR(255)", col "retry_count" "INTEGER", col "created_at" "TIMESTAMPTZ",
    col "updated_at" "TIMESTAMPTZ"]
  keys := [["id"], ["merchant_id", "idempotency_key"]]
  foreignKeys := [⟨"payment_id", "payments", "id"⟩]

def refundEventsTable : TableDef where
  columns := [col "id" "UUID", col "refund_id" "UUID", col "event_type" "VARCHAR(100)",
    col "previous_status" "VARCHAR(30)", col "new_status" "VARCHAR(30)", col "metadata" "JSONB",
    col "created_at" "TIMESTAMPTZ"]
  keys := [["id"]]
  foreignKeys := [⟨"refund_id", "refunds", "id"⟩]

/-- `migrations/004_create_refunds.sql`. -/
def createRefundsSql : List DdlStmt :=
  [.createTable true "refunds" refundsTable
      [("refunds_merchant_idempotency_unique", ["merchant_id", "idempotency_key"])],
    .createIndex true "idx_refunds_payment_id" "refunds" ["payment_id"],
    .createIndex true "idx_refunds_status" "refunds" ["status"],
    .createTable true "refund_events" refundEventsTable [],
    .createIndex true "idx_refund_events_refund_id" "refund_events" ["refund_id"],
    .createIndex true "idx_refund_events_created_at" "refund_events" ["created_at"]]

/-- A script with its path from `PROJECT_ROOT`. -/
structure MigrationFile where
  name : String
  sql : List DdlStmt

/-- `MIGRATION_FILES`. -/
def migrationFiles : List MigrationFile :=
  [⟨"app/schema.sql", schemaSql⟩, ⟨"migrations/004_create_refunds.sql", createRefundsSql⟩]

/-! ### The database -/

/-- A row of `schema_migrations`. -/
structure AppliedMigration where
  filename : String
  appliedAt : ℕ

/-- The catalog, and `schema_migrations` if that table is there. -/
structure MigratedDb (V : Type) where
  catalog : Catalog V
  schemaMigrations : Option (List AppliedMigration)

/-- The filenames that are recorded. -/
def MigratedDb.recorded {V : Type} (D : MigratedDb V) : List String :=
  (D.schemaMigrations.getD []).map (·.filename)

/-- The statements that `run_migrations` executes. -/
inductive MigrationStmt where
  | createSchemaMigrations
  | selectApplied (migrationName : String)
  | execute (migrationSql : List DdlStmt)
  | insertApplied (migrationName : String)

/-- What they answer. -/
abbrev MigrationRes : MigrationStmt → Type
  | .selectApplied _ => Bool
  | _ => Unit

/-- Why `run_migrations` fails. -/
inductive MigrationError where
  | ddl (e : DdlError)
  | undefinedTable
  | uniqueViolation
  | connectionLost

/-- One statement; `now` is the start of the transaction. -/
def execMigration {V : Type} (now : ℕ) (D : MigratedDb V) :
    (s : MigrationStmt) → Except MigrationError (MigrationRes s × MigratedDb V)
  | .createSchemaMigrations =>
    .ok ((), { D with schemaMigrations := some (D.schemaMigrations.getD []) })
  | .selectApplied migrationName =>
    match D.schemaMigrations with
    | none => .error .undefinedTable
    | some applied => .ok (applied.any fun m => m.filename = migrationName, D)
  | .execute migrationSql =>
    match D.catalog.run migrationSql with
    | .ok catalog => .ok ((), { D with catalog := catalog })
    | .error e => .error (.ddl e)
  | .insertApplied migrationName =>
    match D.schemaMigrations with
    | none => .error .undefinedTable
    | some applied =>
      if applied.any fun m => m.filename = migrationName then .error .uniqueViolation
      else .ok ((), { D with schemaMigrations := some (applied ++ [⟨migrationName, now⟩]) })

/-! ### run_migrations -/

/-- A program over the connection. -/
abbrev MigrationProg := Prog MigrationStmt MigrationRes MigrationError

/-- `for migration_path in MIGRATION_FILES`. -/
def applyMigrations : List MigrationFile → MigrationProg Unit
  | [] => return ()
  | migration :: rest =>
    .op (.selectApplied migration.name) fun (alreadyApplied : Bool) =>
      if alreadyApplied then applyMigrations rest
      else do
        let _ ← .perform (.execute migration.sql)
        let _ ← .perform (.insertApplied migration.name)
        applyMigrations rest

def runMigrations : MigrationProg Unit := do
  let _ ← .perform .createSchemaMigrations
  applyMigrations migrationFiles

/-- Execute a program on a connection that is lost after so many statements, or not at all. -/
def executeUntil {V α : Type} (now : ℕ) : Option ℕ → MigrationProg α → MigratedDb V →
    Except MigrationError (α × MigratedDb V)
  | _, .pure a, D => .ok (a, D)
  | _, .raise e, _ => .error e
  | lost, .op s k, D =>
    if lost = some 0 then .error .connectionLost
    else
      match execMigration now D s with
      | .ok (r, D') => executeUntil now (lost.map Nat.pred) (k r) D'
      | .error e => .error e

/-- `with psycopg.connect(…) as connection`: a commit in the end, or a rollback. -/
def migrate {V : Type} (now : ℕ) (lost : Option ℕ) (D : MigratedDb V) :
    Except MigrationError Unit × MigratedDb V :=
  match executeUntil now lost runMigrations D with
  | .ok (_, D') => (.ok (), D')
  | .error e => (.error e, D)

end Payflow.Model
