import Mathlib.Data.List.Nodup
import Payflow.Model.Migrations

/-! # Migrations

`run_migrations` on a database in which any of the project's tables are there, with any rows, and
any scripts are recorded. What it records and what it leaves alone is read off its loop; whether
`app/schema.sql`, which drops four tables, runs to its end is foreseen from the names alone. -/

namespace Payflow.Safety

open Payflow.Lib Payflow.Model

variable {V : Type}

/-! ### The databases -/

/-- The tables that `app/schema.sql` drops and creates. -/
def schemaTables : List (String × TableDef) :=
  [("payments", paymentsTable), ("payment_events", paymentEventsTable),
    ("webhook_events", webhookEventsTable), ("outbox_events", outboxEventsTable)]

/-- The tables of the project. -/
def projectTables : List (String × TableDef) :=
  schemaTables ++ [("refunds", refundsTable), ("refund_events", refundEventsTable)]

/-- Its indexes, with their tables and columns. -/
def projectIndexes : List (String × String × List String) :=
  [("idx_payments_user_id", "payments", ["user_id"]),
    ("idx_payments_status", "payments", ["status"]),
    ("idx_payment_events_payment", "payment_events", ["payment_id", "created_at"]),
    ("idx_outbox_pending", "outbox_events", ["status", "available_at"]),
    ("refunds_merchant_idempotency_unique", "refunds", ["merchant_id", "idempotency_key"]),
    ("idx_refunds_payment_id", "refunds", ["payment_id"]),
    ("idx_refunds_status", "refunds", ["status"]),
    ("idx_refund_events_refund_id", "refund_events", ["refund_id"]),
    ("idx_refund_events_created_at", "refund_events", ["created_at"])]

/-- What the names of the project stand for, where they are not free. -/
def projectNames : Catalog.Foresight := fun n =>
  match projectTables.lookup n, projectIndexes.lookup n with
  | some d, _ => some (.maybeTable d)
  | none, some (table, columns) => some (.maybeIndex table columns)
  | none, none => if n = "payment_status" then some .maybeEnum else none

/-- A database of the project: any of its tables are there, as the scripts make them, and no script
is recorded twice. -/
structure ProjectDb (D : MigratedDb V) : Prop where
  names : D.catalog.Knows projectNames
  closed : D.catalog.Closed
  recorded : D.recorded.Nodup

/-- The rows of the project's tables are still there. -/
def RowsKept (D D' : MigratedDb V) : Prop :=
  ∀ x ∈ projectTables, (D.catalog.rows x.1).Sublist (D'.catalog.rows x.1)

/-- Every run, on a connection that may be lost, fails and changes nothing, or succeeds: then every
script is recorded once, no row is lost, and a further run changes nothing. -/
def Migrates (D : MigratedDb V) : Prop :=
  ∀ now lost,
    match migrate now lost D with
    | (.error _, D') => D' = D
    | (.ok _, D') =>
      (∀ m ∈ migrationFiles, D'.recorded.count m.name = 1) ∧ RowsKept D D' ∧
        ∀ now' lost', (migrate now' lost' D').2 = D'

/-! ### The loop -/

section loop

variable {α : Type} {now : ℕ} {D D' : MigratedDb V} {lost : Option ℕ}

theorem executeUntil_op {s : MigrationStmt} {k : MigrationRes s → MigrationProg α} :
    executeUntil now none (.op s k) D =
      match execMigration now D s with
      | .ok (r, D') => executeUntil now none (k r) D'
      | .error e => .error e := by
  rw [executeUntil, if_neg nofun]
  rfl

theorem executeUntil_none : ∀ {p : MigrationProg α} {lost : Option ℕ} {D : MigratedDb V}
    {x : α × MigratedDb V}, executeUntil now lost p D = .ok x → executeUntil now none p D = .ok x
  | .pure a, lost, D, x, h => h
  | .raise e, lost, D, x, h => h
  | .op s k, lost, D, x, h => by
    rw [executeUntil] at h
    rw [executeUntil_op]
    split_ifs at h
    revert h
    cases execMigration now D s with
    | ok x' => exact executeUntil_none
    | error e => exact nofun

/-- The next script is skipped if it is recorded, and otherwise executed and recorded. -/
theorem executeUntil_applyMigrations {m : MigrationFile} {rest : List MigrationFile}
    (hledger : D.schemaMigrations.isSome = true) :
    executeUntil now none (applyMigrations (m :: rest)) D =
      if m.name ∈ D.recorded then executeUntil now none (applyMigrations rest) D
      else
        match D.catalog.run m.sql with
        | .ok C => executeUntil now none (applyMigrations rest)
          ⟨C, some (D.schemaMigrations.getD [] ++ [⟨m.name, now⟩])⟩
        | .error e => .error (.ddl e) := by
  obtain ⟨C, _ | applied⟩ := D
  · cases hledger
  have hany : (applied.any fun m' => m'.filename = m.name) =
      decide (m.name ∈ MigratedDb.recorded ⟨C, some applied⟩) := by
    simp [MigratedDb.recorded, List.any_eq]
  rw [applyMigrations, executeUntil_op]
  simp only [execMigration, hany, decide_eq_true_eq]
  split_ifs with hrecorded
  · rfl
  · rw [Prog.bind_eq, Prog.perform_bind, executeUntil_op]
    simp only [execMigration]
    cases C.run m.sql with
    | error e => rfl
    | ok C' =>
      simp only [Prog.bind_eq, Prog.perform_bind]
      rw [executeUntil_op]
      simp only [execMigration, hany, decide_eq_true_eq, if_neg hrecorded, Option.getD_some]

/-- `CREATE TABLE IF NOT EXISTS schema_migrations`. -/
def withLedger (D : MigratedDb V) : MigratedDb V :=
  { D with schemaMigrations := some (D.schemaMigrations.getD []) }

theorem executeUntil_runMigrations : executeUntil now none runMigrations D =
    executeUntil now none (applyMigrations migrationFiles) (withLedger D) := by
  unfold runMigrations
  rw [Prog.bind_eq, Prog.perform_bind, executeUntil_op]
  rfl

theorem recorded_withLedger : (withLedger D).recorded = D.recorded := rfl

/-- What a run has recorded in the end. -/
structure Applied (files : List MigrationFile) (D D' : MigratedDb V) : Prop where
  ledger : D'.schemaMigrations.isSome = true
  old : ∀ n ∈ D.recorded, n ∈ D'.recorded
  new : ∀ m ∈ files, m.name ∈ D'.recorded
  once : D.recorded.Nodup → D'.recorded.Nodup

theorem recorded_apply {C : Catalog V} {m : MigrationFile} :
    (⟨C, some (D.schemaMigrations.getD [] ++ [⟨m.name, now⟩])⟩ : MigratedDb V).recorded =
      D.recorded ++ [m.name] := by
  simp [MigratedDb.recorded]

/-- **The ledger** after a run: every script once. -/
theorem recorded_of_applied : ∀ {files : List MigrationFile} {D D' : MigratedDb V},
    D.schemaMigrations.isSome = true →
      executeUntil now none (applyMigrations files) D = .ok ((), D') → Applied files D D'
  | [], D, D', hledger, h => by
    obtain rfl := (Prod.mk.inj (Except.ok.inj h)).2
    exact ⟨hledger, fun _ hn => hn, fun _ => nofun, id⟩
  | m :: rest, D, D', hledger, h => by
    rw [executeUntil_applyMigrations hledger] at h
    split_ifs at h with hm
    · have hrest := recorded_of_applied hledger h
      refine ⟨hrest.ledger, hrest.old, fun m' hm' => ?_, hrest.once⟩
      rcases List.mem_cons.mp hm' with rfl | hm'
      · exact hrest.old _ hm
      · exact hrest.new m' hm'
    · split at h
      · have hrest := recorded_of_applied rfl h
        obtain ⟨hledger', hold, hnew, honce⟩ := hrest
        rw [recorded_apply] at hold honce
        refine ⟨hledger', fun n hn => hold n (List.mem_append_left _ hn), fun m' hm' => ?_,
          fun hnodup => honce ?_⟩
        · rcases List.mem_cons.mp hm' with rfl | hm'
          · exact hold _ (by simp)
          · exact hnew m' hm'
        · refine List.nodup_append.mpr ⟨hnodup, by simp, fun n hn n' hn' => ?_⟩
          rintro rfl
          exact hm (List.mem_singleton.mp hn' ▸ hn)
      · cases h

/-- **The rows** of a table that no script drops which is not recorded. -/
theorem rows_of_applied {n : String} : ∀ {files : List MigrationFile} {D : MigratedDb V}
    {t : TableWithRows V}, D.schemaMigrations.isSome = true →
      executeUntil now none (applyMigrations files) D = .ok ((), D') →
      D.catalog n = some (.table t) →
      (∀ m ∈ files, m.name ∉ D.recorded → m.sql.all (Catalog.spares n t.columns) = true) →
      D'.catalog.rows n = t.rows
  | [], D, t, hledger, h, ht, _ => by
    obtain rfl := (Prod.mk.inj (Except.ok.inj h)).2
    simp [Catalog.rows, ht]
  | m :: rest, D, t, hledger, h, ht, hspares => by
    rw [executeUntil_applyMigrations hledger] at h
    split_ifs at h with hm
    · exact rows_of_applied hledger h ht fun m' hm' => hspares m' (List.mem_cons_of_mem _ hm')
    · split at h
      · rename_i C hrun
        obtain ⟨t', ht', hsame⟩ := Catalog.run_keeps hrun ht (hspares m List.mem_cons_self hm)
        rw [← hsame.rows]
        refine rows_of_applied rfl h ht' fun m' hm' hnot => ?_
        rw [recorded_apply] at hnot
        rw [hsame.columns]
        exact hspares m' (List.mem_cons_of_mem _ hm') fun hin =>
          hnot (List.mem_append_left _ hin)
      · cases h

theorem idle_of_recorded (hledger : D.schemaMigrations.isSome = true) :
    ∀ {files : List MigrationFile}, (∀ m ∈ files, m.name ∈ D.recorded) →
      executeUntil now none (applyMigrations files) D = .ok ((), D)
  | [], _ => rfl
  | m :: rest, h => by
    rw [executeUntil_applyMigrations hledger, if_pos (h m List.mem_cons_self)]
    exact idle_of_recorded hledger fun m' hm' => h m' (List.mem_cons_of_mem _ hm')

/-- **A further run** changes nothing. -/
theorem migrate_again (hledger : D.schemaMigrations.isSome = true)
    (h : ∀ m ∈ migrationFiles, m.name ∈ D.recorded) : (migrate now lost D).2 = D := by
  unfold migrate
  split
  · rename_i D' hrun
    have hrun := executeUntil_none hrun
    have hsame : withLedger D = D := by
      obtain ⟨C, _ | applied⟩ := D
      · cases hledger
      · rfl
    rw [executeUntil_runMigrations, hsame, idle_of_recorded hledger h] at hrun
    exact (Prod.mk.inj (Except.ok.inj hrun)).2.symm
  · rfl

end loop

/-! ### The scripts -/

theorem schema_foreseen :
    ((Catalog.foreseeAll projectNames schemaSql).bind fun E =>
      (Catalog.foreseeAll E createRefundsSql).map fun E' =>
        schemaTables.all fun x =>
          E x.1 = some (.table x.2 true) && E' x.1 = some (.table x.2 true)) =
      some true := by
  decide +kernel

theorem rows_of_known {C : Catalog V} {E : Catalog.Foresight} (hK : C.Knows E) {n : String}
    {d : TableDef} (h : E n = some (.table d true)) : C.rows n = [] := by
  obtain ⟨t, ht, -, -, hrows⟩ := hK n _ h
  simp only [Catalog.rows, ht]
  exact hrows rfl

/-- **Where `app/schema.sql` is not recorded**, the run succeeds, and its tables are empty. -/
theorem migrate_of_not_recorded {D : MigratedDb V} (h : ProjectDb D)
    (hnot : "app/schema.sql" ∉ D.recorded) (now : ℕ) :
    ∃ D', migrate now none D = (.ok (), D') ∧ ∀ x ∈ schemaTables, D'.catalog.rows x.1 = [] := by
  obtain ⟨E, hE, hforeseen⟩ := Option.bind_eq_some_iff.mp schema_foreseen
  obtain ⟨E', hE', hempty⟩ := Option.map_eq_some_iff.mp hforeseen
  simp only [List.all_eq_true, Bool.and_eq_true, decide_eq_true_eq] at hempty
  obtain ⟨C, hrun, hclosed, hK⟩ := Catalog.foreseeAll_sound h.closed h.names hE
  suffices hsuffices : ∃ D', executeUntil now none runMigrations D = .ok ((), D') ∧
      ∀ x ∈ schemaTables, D'.catalog.rows x.1 = [] by
    obtain ⟨D', hD', hrows⟩ := hsuffices
    exact ⟨D', by simp only [migrate, hD'], hrows⟩
  rw [executeUntil_runMigrations]
  unfold migrationFiles
  rw [executeUntil_applyMigrations rfl, recorded_withLedger, if_neg hnot,
    show (withLedger D).catalog = D.catalog from rfl, hrun]
  simp only
  rw [executeUntil_applyMigrations rfl]
  split_ifs with hrefunds
  · exact ⟨_, rfl, fun x hx => rows_of_known hK (hempty x hx).1⟩
  · obtain ⟨C', hrun', -, hK'⟩ := Catalog.foreseeAll_sound hclosed hK hE'
    simp only [hrun']
    exact ⟨_, rfl, fun x hx => rows_of_known hK' (hempty x hx).2⟩

theorem spares_createRefundsSql (n : String) (columns : List Column) :
    createRefundsSql.all (Catalog.spares n columns) = true := rfl

/-- The tables of the refunds have no column of a type that is dropped. -/
theorem spares_schemaSql {D : MigratedDb V} (h : ProjectDb D) {x : String × TableDef}
    (hx : x ∈ [("refunds", refundsTable), ("refund_events", refundEventsTable)])
    {t : TableWithRows V} (ht : D.catalog x.1 = some (.table t)) :
    schemaSql.all (Catalog.spares x.1 t.columns) = true := by
  have hnames : projectNames x.1 = some (.maybeTable x.2) ∧
      schemaSql.all (Catalog.spares x.1 x.2.columns) = true := by
    rcases List.mem_cons.mp hx with rfl | hx
    · exact ⟨rfl, rfl⟩
    · obtain rfl := List.mem_singleton.mp hx
      exact ⟨rfl, rfl⟩
  rcases h.names _ _ hnames.1 with he | ⟨t', ht', hcolumns, -⟩
  · simp [ht] at he
  · obtain rfl := Object.table.inj (Option.some.inj (ht.symm.trans ht'))
    rw [hcolumns]
    exact hnames.2

/-- **The rows** are kept by a run that may drop no table with rows. -/
theorem rowsKept_of_applied {D D' : MigratedDb V} {now : ℕ} (h : ProjectDb D)
    (hcond : "app/schema.sql" ∈ D.recorded ∨ ∀ x ∈ schemaTables, D.catalog.rows x.1 = [])
    (hrun : executeUntil now none (applyMigrations migrationFiles) (withLedger D) = .ok ((), D')) :
    RowsKept D D' := by
  intro x hx
  cases ht : D.catalog x.1 with
  | none => simp [Catalog.rows, ht]
  | some o =>
    cases o with
    | index table columns | enum labels => simp [Catalog.rows, ht]
    | table t =>
      by_cases hrows : t.rows = []
      · simp [Catalog.rows, ht, hrows]
      · have hkept : D'.catalog.rows x.1 = t.rows := by
          refine rows_of_applied rfl hrun ht fun m hm hnot => ?_
          rcases List.mem_cons.mp hm with rfl | hm
          · -- only the tables of the refunds have rows
            rcases hcond with hrec | hempty
            · exact absurd hrec hnot
            · rcases List.mem_append.mp hx with hx | hx
              · have hnone := hempty x hx
                simp only [Catalog.rows, ht] at hnone
                exact absurd hnone hrows
              · exact spares_schemaSql h hx ht
          · obtain rfl := List.mem_singleton.mp hm
            exact spares_createRefundsSql _ _
        rw [hkept]
        simp [Catalog.rows, ht]

/-- **Migrations** do what they should exactly where `app/schema.sql` is recorded, or the tables
that it drops have no rows. -/
theorem migrates_iff {D : MigratedDb V} (h : ProjectDb D) :
    Migrates D ↔ "app/schema.sql" ∈ D.recorded ∨ ∀ x ∈ schemaTables, D.catalog.rows x.1 = [] := by
  constructor
  · intro hm
    by_contra hnot
    rw [not_or] at hnot
    obtain ⟨D', hmigrate, hempty⟩ := migrate_of_not_recorded h hnot.1 0
    have hrun := hm 0 none
    rw [hmigrate] at hrun
    obtain ⟨-, hkept, -⟩ := hrun
    refine hnot.2 fun x hx => ?_
    have hsub := hkept x (List.mem_append_left _ hx)
    rw [hempty x hx] at hsub
    exact List.sublist_nil.mp hsub
  · intro hcond now lost
    cases hmigrate : migrate now lost D with
    | mk res D' =>
      unfold migrate at hmigrate
      split at hmigrate
      · rename_i D₁ hrun
        obtain ⟨rfl, rfl⟩ := Prod.mk.inj hmigrate
        have hrun := executeUntil_none hrun
        rw [executeUntil_runMigrations] at hrun
        have hrec := recorded_of_applied rfl hrun
        refine ⟨fun m hm => ?_, fun x hx => ?_, fun now' lost' =>
          migrate_again hrec.ledger hrec.new⟩
        · exact List.count_eq_one_of_mem (hrec.once h.recorded) (hrec.new m hm)
        · exact rowsKept_of_applied h hcond hrun x hx
      · obtain ⟨rfl, rfl⟩ := Prod.mk.inj hmigrate
        rfl

/-! ### Databases set up by other means -/

theorem knows_projectNames {C : Catalog V}
    (htables : ∀ x ∈ projectTables, C x.1 = none ∨ Catalog.IsTable x.2 false (C x.1))
    (hindexes : ∀ x ∈ projectIndexes, C x.1 = none ∨ C x.1 = some (.index x.2.1 x.2.2))
    (htype : C "payment_status" = none ∨ ∃ labels, C "payment_status" = some (.enum labels)) :
    C.Knows projectNames := by
  have hmem : ∀ {β : Type} {l : List (String × β)} {n b}, l.lookup n = some b → (n, b) ∈ l := by
    intro β l n b h
    obtain ⟨l₁, l₂, rfl, -⟩ := List.lookup_eq_some_iff.mp h
    simp
  intro n k hk
  unfold projectNames at hk
  split at hk
  · rename_i d hd
    obtain rfl := Option.some.inj hk
    exact htables _ (hmem hd)
  · rename_i owner columns _ hindex
    obtain rfl := Option.some.inj hk
    exact hindexes _ (hmem hindex)
  · split_ifs at hk with hn
    obtain rfl := Option.some.inj hk
    exact hn ▸ htype

/-- What `app/schema.sql` sets up, with these payments. -/
def initdb (payments : List (List (String × String))) : Catalog String := fun n =>
  [("payment_status", Object.enum
      ["CREATED", "PROCESSING", "SUCCEEDED", "FAILED", "REFUND_PENDING", "REFUNDED"]),
    ("payments", .table { paymentsTable with rows := payments }),
    ("payment_events", .table { paymentEventsTable with rows := [] }),
    ("webhook_events", .table { webhookEventsTable with rows := [] }),
    ("outbox_events", .table { outboxEventsTable with rows := [] }),
    ("idx_payments_user_id", .index "payments" ["user_id"]),
    ("idx_payments_status", .index "payments" ["status"]),
    ("idx_payment_events_payment", .index "payment_events" ["payment_id", "created_at"]),
    ("idx_outbox_pending", .index "outbox_events" ["status", "available_at"])].lookup n

theorem projectDb_initdb (payments : List (List (String × String)))
    {ledger : Option (List AppliedMigration)}
    (hledger : ((ledger.getD []).map (·.filename)).Nodup) :
    ProjectDb ⟨initdb payments, ledger⟩ where
  recorded := hledger
  names := by
    refine knows_projectNames ?_ ?_ (Or.inr ⟨_, rfl⟩)
    · simp only [projectTables, schemaTables, List.cons_append, List.nil_append,
        List.forall_mem_cons]
      have htable : ∀ {d : TableDef} {rows : List (List (String × String))},
          Catalog.IsTable d false (some (.table { d with rows := rows })) :=
        ⟨_, rfl, rfl, rfl, nofun⟩
      exact ⟨Or.inr htable, Or.inr htable, Or.inr htable, Or.inr htable, Or.inl rfl, Or.inl rfl,
        nofun⟩
    · simp only [projectIndexes, List.forall_mem_cons]
      exact ⟨Or.inr rfl, Or.inr rfl, Or.inr rfl, Or.inr rfl, Or.inl rfl, Or.inl rfl, Or.inl rfl,
        Or.inl rfl, Or.inl rfl, nofun⟩
  closed := by
    intro n table columns h
    obtain ⟨l, l', hl, -⟩ := List.lookup_eq_some_iff.mp h
    have hmem : (n, Object.index table columns) ∈ l ++ (n, Object.index table columns) :: l' := by
      simp
    rw [← hl] at hmem
    simp only [List.mem_cons, Prod.mk.injEq, reduceCtorEq, and_false, Object.index.injEq,
      false_or, List.not_mem_nil, or_false] at hmem
    rcases hmem with ⟨-, rfl, -⟩ | ⟨-, rfl, -⟩ | ⟨-, rfl, -⟩ | ⟨-, rfl, -⟩ <;> exact ⟨_, rfl⟩

/-- A payment. -/
def examplePaymentRow : List (String × String) :=
  [("id", "00000000-0000-4000-8000-000000000001"), ("amount_cents", "500"), ("status", "SUCCEEDED")]

/-- Where the script is recorded, the payment stays. -/
theorem migrates_recorded :
    Migrates ⟨initdb [examplePaymentRow], some [⟨"app/schema.sql", 0⟩]⟩ :=
  (migrates_iff (projectDb_initdb _ (by decide))).mpr (Or.inl (by decide))

/-- A database that was set up without `run_migrations`, with a payment, which is lost. -/
theorem migrates_fails :
    ∃ D : MigratedDb String, ProjectDb D ∧ D.catalog.rows "payments" = [examplePaymentRow] ∧
      (∃ D', migrate 0 none D = (.ok (), D') ∧ D'.catalog.rows "payments" = []) ∧ ¬ Migrates D := by
  have hdb : ProjectDb ⟨initdb [examplePaymentRow], none⟩ := projectDb_initdb _ (by decide)
  obtain ⟨D', hmigrate, hempty⟩ := migrate_of_not_recorded hdb (by decide) 0
  have hnone := hempty _ List.mem_cons_self
  refine ⟨_, hdb, rfl, ⟨D', hmigrate, hnone⟩, fun hm => ?_⟩
  have hrun := hm 0 none
  rw [hmigrate] at hrun
  have hsub := hrun.2.1 _ List.mem_cons_self
  rw [hnone] at hsub
  exact List.cons_ne_nil _ _ (List.sublist_nil.mp hsub)

end Payflow.Safety
