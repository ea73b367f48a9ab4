import Mathlib.Data.List.Basic
import Mathlib.Logic.Function.Basic

/-! # Catalogs, and the scripts that change them

A catalog has tables with their rows, indexes and types by their names, which are one name space. A
script creates and drops them. `run_keeps` says whose rows a script leaves alone. What is `Known` of
some names can be carried through a script (`foresee`): where that goes through, the script runs to
its end, and what was foreseen holds. -/

namespace Payflow.Lib

/-- The type of a column: one of the database, or one of the catalog. -/
inductive ColumnType where
  | builtin (name : String)
  | named (name : String)
  deriving DecidableEq

/-- A column. -/
structure Column where
  name : String
  type : ColumnType
  deriving DecidableEq

/-- A column whose values are those of a key of another table. -/
structure ForeignKey where
  column : String
  table : String
  key : String
  deriving DecidableEq

/-- The columns of a table, its keys and its foreign keys. -/
structure TableDef where
  columns : List Column
  keys : List (List String)
  foreignKeys : List ForeignKey
  deriving DecidableEq

/-- A table with its rows. -/
structure TableWithRows (V : Type) extends TableDef where
  rows : List (List (String × V))

/-- What a name stands for. -/
inductive Object (V : Type) where
  | table (t : TableWithRows V)
  | index (table : String) (columns : List String)
  | enum (labels : List String)

/-- The objects by name. -/
abbrev Catalog (V : Type) := String → Option (Object V)

/-- The statements of a script: `DROP … IF EXISTS … CASCADE`, and `CREATE …`, with `IF NOT EXISTS`
or without. A table may have named constraints that are indexes; the indexes of unnamed ones get
names that are free, and are left out. -/
inductive DdlStmt where
  | dropTable (name : String)
  | dropType (name : String)
  | createType (name : String) (labels : List String)
  | createTable (ifNotExists : Bool) (name : String) (d : TableDef)
      (constraints : List (String × List String))
  | createIndex (ifNotExists : Bool) (name table : String) (columns : List String)

/-- Why a statement fails. -/
inductive DdlError where
  | wrongObjectType
  | duplicateObject
  | duplicateTable
  | undefinedTable
  | undefinedColumn
  | undefinedType
  | invalidForeignKey
  deriving DecidableEq

namespace Catalog

variable {V : Type}

/-- The rows of a table. -/
def rows (C : Catalog V) (name : String) : List (List (String × V)) :=
  match C name with
  | some (.table t) => t.rows
  | _ => []

/-- The table is gone, and with it its indexes and the foreign keys that point at it. -/
def dropTable (C : Catalog V) (name : String) : Catalog V := fun n =>
  if n = name then none
  else
    match C n with
    | some (.table t) =>
      some (.table { t with foreignKeys := t.foreignKeys.filter fun fk => fk.table ≠ name })
    | some (.index table columns) => if table = name then none else some (.index table columns)
    | o => o

/-- The columns of a table that have the type. -/
def ofType (C : Catalog V) (name table : String) : List String :=
  match C table with
  | some (.table t) => (t.columns.filter fun c => c.type = .named name).map (·.name)
  | _ => []

/-- The type is gone, and with it the columns that have it, their values, and the keys and indexes
they are part of. -/
def dropType (C : Catalog V) (name : String) : Catalog V := fun n =>
  if n = name then none
  else
    match C n with
    | some (.table t) =>
      some (.table {
        columns := t.columns.filter fun c => c.name ∉ C.ofType name n
        keys := t.keys.filter fun key => key.all fun c => c ∉ C.ofType name n
        foreignKeys := t.foreignKeys.filter fun fk =>
          fk.column ∉ C.ofType name n ∧ fk.key ∉ C.ofType name fk.table
        rows := t.rows.map fun row => row.filter fun x => x.1 ∉ C.ofType name n })
    | some (.index table columns) =>
      if columns.all fun c => c ∉ C.ofType name table then some (.index table columns) else none
    | o => o

/-- A new table, with the indexes of its named constraints. -/
def createTable (C : Catalog V) (name : String) (d : TableDef)
    (constraints : List (String × List String)) : Catalog V := fun n =>
  if n = name then some (.table { d with rows := [] })
  else
    match constraints.lookup n with
    | some columns => some (.index name columns)
    | none => C n

/-- The type is there. -/
def hasType (C : Catalog V) : ColumnType → Bool
  | .builtin _ => true
  | .named name =>
    match C name with
    | some (.enum _) => true
    | _ => false

/-- The table that is pointed at is there, with its key. -/
def hasKey (C : Catalog V) (fk : ForeignKey) : Bool :=
  match C fk.table with
  | some (.table t) => [fk.key] ∈ t.keys
  | _ => false

/-- One statement. -/
def exec (C : Catalog V) : DdlStmt → Except DdlError (Catalog V)
  | .dropTable name =>
    match C name with
    | none => .ok C
    | some (.table _) => .ok (C.dropTable name)
    | some _ => .error .wrongObjectType
  | .dropType name =>
    match C name with
    | none => .ok C
    | some (.enum _) => .ok (C.dropType name)
    | some _ => .error .wrongObjectType
  | .createType name labels =>
    match C name with
    | none => .ok (Function.update C name (some (.enum labels)))
    | some _ => .error .duplicateObject
  | .createTable ifNotExists name d constraints =>
    match C name with
    | none =>
      if !d.columns.all fun c => C.hasType c.type then .error .undefinedType
      else if !d.foreignKeys.all C.hasKey then .error .invalidForeignKey
      else if !constraints.all fun c => c.1 ≠ name && (C c.1).isNone then .error .duplicateTable
      else .ok (C.createTable name d constraints)
    | some (.enum _) => .error .duplicateObject
    | some _ => if ifNotExists then .ok C else .error .duplicateTable
  | .createIndex ifNotExists name table columns =>
    match C table with
    | some (.table t) =>
      if !columns.all fun c => c ∈ t.columns.map (·.name) then .error .undefinedColumn
      else
        match C name with
        | none => .ok (Function.update C name (some (.index table columns)))
        | some _ => if ifNotExists then .ok C else .error .duplicateTable
    | _ => .error .undefinedTable

/-- A script. -/
def run (C : Catalog V) : List DdlStmt → Except DdlError (Catalog V)
  | [] => .ok C
  | st :: sts =>
    match C.exec st with
    | .ok C' => run C' sts
    | .error e => .error e

/-- Every index is one of a table that is there. -/
def Closed (C : Catalog V) : Prop :=
  ∀ n table columns, C n = some (.index table columns) → ∃ t, C table = some (.table t)

/-! ### What a script leaves alone -/

/-- The statement drops neither the table nor the type of a column. -/
def spares (name : String) (columns : List Column) : DdlStmt → Bool
  | .dropTable n => n ≠ name
  | .dropType n => columns.all fun c => c.type ≠ .named n
  | _ => true

/-- The table is the same but for its foreign keys. -/
structure SameRows (t t' : TableWithRows V) : Prop where
  columns : t'.columns = t.columns
  keys : t'.keys = t.keys
  rows : t'.rows = t.rows

section keeps

variable {C C' : Catalog V} {name n : String} {t : TableWithRows V}

theorem SameRows.refl (t : TableWithRows V) : SameRows t t := ⟨rfl, rfl, rfl⟩

theorem SameRows.trans {t t' t'' : TableWithRows V} (h : SameRows t t') (h' : SameRows t' t'') :
    SameRows t t'' :=
  ⟨h'.columns.trans h.columns, h'.keys.trans h.keys, h'.rows.trans h.rows⟩

theorem dropTable_keeps (ht : C n = some (.table t)) (hn : n ≠ name) :
    ∃ t', C.dropTable name n = some (.table t') ∧ SameRows t t' := by
  unfold dropTable
  rw [if_neg hn, ht]
  exact ⟨_, rfl, rfl, rfl, rfl⟩

theorem ofType_eq_nil (ht : C n = some (.table t))
    (hcolumns : (t.columns.all fun c => c.type ≠ .named name) = true) : C.ofType name n = [] := by
  unfold ofType
  rw [ht]
  simp only [List.map_eq_nil_iff, List.filter_eq_nil_iff, decide_eq_true_eq]
  intro c hc
  exact of_decide_eq_true (List.all_eq_true.mp hcolumns c hc)

theorem dropType_keeps (ht : C n = some (.table t)) (hn : n ≠ name)
    (hcolumns : (t.columns.all fun c => c.type ≠ .named name) = true) :
    ∃ t', C.dropType name n = some (.table t') ∧ SameRows t t' := by
  unfold dropType
  rw [if_neg hn, ht]
  simp only [ofType_eq_nil ht hcolumns]
  refine ⟨_, rfl, ?_, ?_, ?_⟩ <;> simp

theorem createTable_of_some {d : TableDef} {constraints : List (String × List String)}
    (hname : C name = none) (hfree : ∀ c ∈ constraints, C c.1 = none) {o : Object V}
    (ho : C n = some o) : C.createTable name d constraints n = some o := by
  unfold createTable
  have hn : n ≠ name := by
    rintro rfl
    simp [ho] at hname
  rw [if_neg hn]
  split
  · rename_i columns hlookup
    obtain ⟨l, l', rfl, -⟩ := List.lookup_eq_some_iff.mp hlookup
    have hnone : C n = none := hfree (n, columns) (by simp)
    simp [hnone] at ho
  · exact ho

theorem exec_createTable {ifNotExists : Bool} {d : TableDef}
    {constraints : List (String × List String)}
    (h : C.exec (.createTable ifNotExists name d constraints) = .ok C') :
    C' = C ∨ (C name = none ∧ (∀ c ∈ constraints, c.1 ≠ name ∧ C c.1 = none) ∧
      C' = C.createTable name d constraints) := by
  simp only [exec] at h
  split at h
  · rename_i hname
    split_ifs at h with htypes hkeys hfree
    obtain rfl := Except.ok.inj h
    refine Or.inr ⟨hname, fun c hc => ?_, rfl⟩
    simp only [Bool.not_eq_true', Bool.not_eq_false, List.all_eq_true, Bool.and_eq_true,
      decide_eq_true_eq, Option.isNone_iff_eq_none] at hfree
    exact hfree c hc
  · simp at h
  · split_ifs at h
    exact Or.inl (Except.ok.inj h).symm

theorem exec_createIndex {ifNotExists : Bool} {table : String} {columns : List String}
    (h : C.exec (.createIndex ifNotExists name table columns) = .ok C') :
    (∃ t, C table = some (.table t)) ∧ (C' = C ∨ (C name = none ∧
      C' = Function.update C name (some (.index table columns)))) := by
  simp only [exec] at h
  split at h
  · rename_i t ht
    refine ⟨⟨t, ht⟩, ?_⟩
    split at h
    · simp at h
    · split at h
      · rename_i hname
        exact Or.inr ⟨hname, (Except.ok.inj h).symm⟩
      · split_ifs at h
        exact Or.inl (Except.ok.inj h).symm
  · simp at h

theorem update_of_some {o : Object V} {x : Option (Object V)} (hname : C name = none)
    (ho : C n = some o) : Function.update C name x n = some o := by
  rw [Function.update_of_ne, ho]
  rintro rfl
  simp [ho] at hname

/-- **A statement that spares a table** keeps its rows. -/
theorem exec_keeps {st : DdlStmt} (h : C.exec st = .ok C') (ht : C n = some (.table t))
    (hs : spares n t.columns st = true) : ∃ t', C' n = some (.table t') ∧ SameRows t t' := by
  have hsame : C' n = C n → ∃ t', C' n = some (.table t') ∧ SameRows t t' := by
    intro he
    exact ⟨t, he.trans ht, .refl t⟩
  cases st with
  | dropTable name =>
    simp only [exec] at h
    split at h
    · exact hsame (Except.ok.inj h ▸ rfl)
    · obtain rfl := Except.ok.inj h
      exact dropTable_keeps ht (Ne.symm (of_decide_eq_true hs))
    · simp at h
  | dropType name =>
    simp only [exec] at h
    split at h
    · exact hsame (Except.ok.inj h ▸ rfl)
    · rename_i labels hname
      obtain rfl := Except.ok.inj h
      refine dropType_keeps ht ?_ hs
      rintro rfl
      simp [ht] at hname
    · simp at h
  | createType name labels =>
    simp only [exec] at h
    split at h
    · rename_i hname
      obtain rfl := Except.ok.inj h
      exact hsame ((update_of_some hname ht).trans ht.symm)
    · simp at h
  | createTable ifNotExists name d constraints =>
    rcases exec_createTable h with rfl | ⟨hname, hfree, rfl⟩
    · exact hsame rfl
    · exact hsame ((createTable_of_some hname (fun c hc => (hfree c hc).2) ht).trans ht.symm)
  | createIndex ifNotExists name table columns =>
    rcases (exec_createIndex h).2 with rfl | ⟨hname, rfl⟩
    · exact hsame rfl
    · exact hsame ((update_of_some hname ht).trans ht.symm)

/-- **A script that spares a table** keeps its rows. -/
theorem run_keeps : ∀ {sts : List DdlStmt} {C : Catalog V} {t : TableWithRows V},
    C.run sts = .ok C' → C n = some (.table t) → sts.all (spares n t.columns) = true →
      ∃ t', C' n = some (.table t') ∧ SameRows t t'
  | [], C, t, h, ht, _ => ⟨t, Except.ok.inj h ▸ ht, .refl t⟩
  | st :: sts, C, t, h, ht, hs => by
    rw [List.all_cons, Bool.and_eq_true] at hs
    unfold run at h
    split at h
    · rename_i C₁ hexec
      obtain ⟨t₁, ht₁, hsame₁⟩ := exec_keeps hexec ht hs.1
      obtain ⟨t', ht', hsame⟩ := run_keeps h ht₁ (hsame₁.columns ▸ hs.2)
      exact ⟨t', ht', hsame₁.trans hsame⟩
    · simp at h

theorem exec_closed (hC : C.Closed) {st : DdlStmt} (h : C.exec st = .ok C') : C'.Closed := by
  -- what is new stands under a name that was free
  have hupdate : ∀ {name : String} {o : Object V}, C name = none →
      (∀ table columns, o = .index table columns → ∃ t, C table = some (.table t)) →
      Closed (Function.update C name (some o)) := by
    intro name o hname ho m table columns hm
    have htable : ∃ t, C table = some (.table t) := by
      by_cases hne : m = name
      · subst hne
        rw [Function.update_self] at hm
        exact ho table columns (Option.some.inj hm)
      · rw [Function.update_of_ne hne] at hm
        exact hC m table columns hm
    obtain ⟨t, ht⟩ := htable
    exact ⟨t, update_of_some hname ht⟩
  cases st with
  | dropTable name =>
    simp only [exec] at h
    split at h
    · exact Except.ok.inj h ▸ hC
    · obtain rfl := Except.ok.inj h
      intro m table columns hm
      unfold dropTable at hm
      split_ifs at hm with hne
      split at hm
      · cases hm
      · rename_i table' columns' hm'
        split_ifs at hm with htable
        obtain ⟨rfl, rfl⟩ := Object.index.inj (Option.some.inj hm)
        obtain ⟨t, ht⟩ := hC m _ _ hm'
        obtain ⟨t', ht', -⟩ := dropTable_keeps ht htable
        exact ⟨t', ht'⟩
      · rename_i hindex
        exact absurd hm (hindex table columns)
    · simp at h
  | dropType name =>
    simp only [exec] at h
    split at h
    · exact Except.ok.inj h ▸ hC
    · rename_i labels hname
      obtain rfl := Except.ok.inj h
      intro m table columns hm
      unfold dropType at hm
      split_ifs at hm with hne
      split at hm
      · cases hm
      · rename_i table' columns' hm'
        split_ifs at hm with hcolumns
        obtain ⟨rfl, rfl⟩ := Object.index.inj (Option.some.inj hm)
        obtain ⟨t, ht⟩ := hC m _ _ hm'
        have htable : table' ≠ name := by
          rintro rfl
          simp [ht] at hname
        unfold dropType
        rw [if_neg htable, ht]
        exact ⟨_, rfl⟩
      · rename_i hindex
        exact absurd hm (hindex table columns)
    · simp at h
  | createType name labels =>
    simp only [exec] at h
    split at h
    · rename_i hname
      obtain rfl := Except.ok.inj h
      exact hupdate hname fun _ _ => nofun
    · simp at h
  | createTable ifNotExists name d constraints =>
    rcases exec_createTable h with rfl | ⟨hname, hfree, rfl⟩
    · exact hC
    · have hkeep : ∀ {m o}, C m = some o → C.createTable name d constraints m = some o :=
        fun ho => createTable_of_some hname (fun c hc => (hfree c hc).2) ho
      intro m table columns hm
      by_cases hm' : ∃ o, C m = some o
      · obtain ⟨o, ho⟩ := hm'
        obtain rfl := Option.some.inj ((hkeep ho).symm.trans hm)
        obtain ⟨t, ht⟩ := hC m table columns ho
        exact ⟨t, hkeep ht⟩
      · -- the index of a named constraint
        unfold createTable at hm
        split_ifs at hm
        · cases hm
        split at hm
        · obtain ⟨rfl, -⟩ := Object.index.inj (Option.some.inj hm)
          exact ⟨_, if_pos rfl⟩
        · exact absurd ⟨_, hm⟩ hm'
  | createIndex ifNotExists name table columns =>
    obtain ⟨⟨t, ht⟩, hC'⟩ := exec_createIndex h
    rcases hC' with rfl | ⟨hname, rfl⟩
    · exact hC
    · refine hupdate hname fun table' columns' ho => ?_
      obtain ⟨rfl, -⟩ := Object.index.inj ho
      exact ⟨t, ht⟩

end keeps

/-! ### What can be foreseen of a script -/

/-- What is known of a name: it is free, it is a type, it is a table with these columns and keys, it
is an index, or it is so if it is not free. -/
inductive Known where
  | free
  | enum
  | maybeEnum
  | table (d : TableDef) (empty : Bool)
  | maybeTable (d : TableDef)
  | maybeIndex (owner : String) (columns : List String)
  deriving DecidableEq

/-- It is a table with these columns and keys, and without rows if it is to be empty. -/
def IsTable (d : TableDef) (empty : Bool) (o : Option (Object V)) : Prop :=
  ∃ t, o = some (.table t) ∧ t.columns = d.columns ∧ t.keys = d.keys ∧ (empty = true → t.rows = [])

/-- What is known is so. -/
def Known.Holds : Known → Option (Object V) → Prop
  | free, o => o = none
  | enum, o => ∃ labels, o = some (.enum labels)
  | maybeEnum, o => o = none ∨ ∃ labels, o = some (.enum labels)
  | table d empty, o => IsTable d empty o
  | maybeTable d, o => o = none ∨ IsTable d false o
  | maybeIndex owner columns, o => o = none ∨ o = some (.index owner columns)

/-- What is known of a name when the table is gone. -/
def Known.afterDropTable (name : String) : Known → Known
  | maybeIndex owner columns => if owner = name then free else maybeIndex owner columns
  | k => k

/-- What is known of a name when the type is gone. -/
def Known.afterDropType (name : String) : Known → Option Known
  | table d empty =>
    if d.columns.all fun c => c.type ≠ .named name then some (table d empty) else none
  | maybeTable d =>
    if d.columns.all fun c => c.type ≠ .named name then some (maybeTable d) else none
  | k => some k

/-- What is known of the names. -/
abbrev Foresight := String → Option Known

/-- It is so in the catalog. -/
def Knows (C : Catalog V) (E : Foresight) : Prop := ∀ n k, E n = some k → k.Holds (C n)

/-- What a new table needs is known to be there, and the names of its constraints are its own. -/
def ready (E : Foresight) (name : String) (d : TableDef)
    (constraints : List (String × List String)) : Bool :=
  (d.columns.all fun c =>
    match c.type with
    | .builtin _ => true
    | .named type => E type = some .enum) &&
  (d.foreignKeys.all fun fk =>
    match E fk.table with
    | some (.table d' _) => [fk.key] ∈ d'.keys
    | _ => false) &&
  constraints.all fun c => c.1 ≠ name && E c.1 = some (.maybeIndex name c.2)

/-- What is known after a statement that is bound to succeed. -/
def foresee (E : Foresight) : DdlStmt → Option Foresight
  | .dropTable name =>
    match E name with
    | some .free | some (.table _ _) | some (.maybeTable _) =>
      some fun n => if n = name then some .free else (E n).map (·.afterDropTable name)
    | _ => none
  | .dropType name =>
    match E name with
    | some .free | some .enum | some .maybeEnum =>
      some fun n => if n = name then some .free else (E n).bind (·.afterDropType name)
    | _ => none
  | .createType name _ =>
    match E name with
    | some .free => some (Function.update E name (some .enum))
    | _ => none
  | .createTable ifNotExists name d constraints =>
    match E name with
    | some .free =>
      if ready E name d constraints then some (Function.update E name (some (.table d true)))
      else none
    | some (.maybeTable d') =>
      if ready E name d constraints && ifNotExists && d'.columns = d.columns &&
          d'.keys = d.keys then
        some (Function.update E name (some (.table d false)))
      else none
    | some (.table _ _) => if ifNotExists then some E else none
    | _ => none
  | .createIndex ifNotExists name table columns =>
    match E table with
    | some (.table d _) =>
      if columns.all fun c => c ∈ d.columns.map (·.name) then
        match E name with
        | some .free => some (Function.update E name (some (.maybeIndex table columns)))
        | some (.maybeIndex table' columns') =>
          if ifNotExists && table' = table && columns' = columns then some E else none
        | _ => none
      else none
    | _ => none

/-- What is known after a script. -/
def foreseeAll (E : Foresight) : List DdlStmt → Option Foresight
  | [] => some E
  | st :: sts => (foresee E st).bind fun E' => foreseeAll E' sts

section foresee

variable {C C' : Catalog V} {E E' : Foresight} {name n : String}

theorem holds_afterDropTable {k : Known} (hk : k.Holds (C n)) (hn : n ≠ name) :
    (k.afterDropTable name).Holds (C.dropTable name n) := by
  have hnone : C n = none → C.dropTable name n = none := by
    intro he
    unfold dropTable
    rw [if_neg hn, he]
  have henum : ∀ {labels}, C n = some (.enum labels) →
    C.dropTable name n = some (.enum labels) := by
    intro labels he
    unfold dropTable
    rw [if_neg hn, he]
  have htable : ∀ {d empty}, IsTable d empty (C n) → IsTable d empty (C.dropTable name n) := by
    rintro d empty ⟨t, ht, hcolumns, hkeys, hrows⟩
    obtain ⟨t', ht', hsame⟩ := dropTable_keeps ht hn
    exact ⟨t', ht', hsame.columns.trans hcolumns, hsame.keys.trans hkeys,
      fun he => hsame.rows.trans (hrows he)⟩
  cases k with
  | free => exact hnone hk
  | enum =>
    obtain ⟨labels, he⟩ := hk
    exact ⟨labels, henum he⟩
  | maybeEnum =>
    rcases hk with he | ⟨labels, he⟩
    · exact Or.inl (hnone he)
    · exact Or.inr ⟨labels, henum he⟩
  | table d empty => exact htable hk
  | maybeTable d => exact hk.imp hnone htable
  | maybeIndex owner columns =>
    simp only [Known.afterDropTable]
    rcases hk with he | he
    · split_ifs
      · exact hnone he
      · exact Or.inl (hnone he)
    · have hdrop : C.dropTable name n =
          if owner = name then none else some (.index owner columns) := by
        unfold dropTable
        rw [if_neg hn, he]
      split_ifs with howner
      · exact hdrop.trans (if_pos howner)
      · exact Or.inr (hdrop.trans (if_neg howner))

theorem holds_afterDropType {k k' : Known} (hk : k.Holds (C n)) (hn : n ≠ name)
    (hk' : k.afterDropType name = some k') : k'.Holds (C.dropType name n) := by
  have hnone : C n = none → C.dropType name n = none := by
    intro he
    unfold dropType
    rw [if_neg hn, he]
  have henum : ∀ {labels}, C n = some (.enum labels) → C.dropType name n = some (.enum labels) := by
    intro labels he
    unfold dropType
    rw [if_neg hn, he]
  have htable : ∀ {d empty}, (d.columns.all fun c => c.type ≠ .named name) = true →
      IsTable d empty (C n) → IsTable d empty (C.dropType name n) := by
    rintro d empty hd ⟨t, ht, hcolumns, hkeys, hrows⟩
    obtain ⟨t', ht', hsame⟩ := dropType_keeps ht hn (hcolumns ▸ hd)
    exact ⟨t', ht', hsame.columns.trans hcolumns, hsame.keys.trans hkeys,
      fun he => hsame.rows.trans (hrows he)⟩
  cases k with
  | table d empty =>
    simp only [Known.afterDropType] at hk'
    split_ifs at hk' with hd
    obtain rfl := Option.some.inj hk'
    exact htable hd hk
  | maybeTable d =>
    simp only [Known.afterDropType] at hk'
    split_ifs at hk' with hd
    obtain rfl := Option.some.inj hk'
    exact hk.imp hnone (htable hd)
  | free =>
    obtain rfl := Option.some.inj hk'
    exact hnone hk
  | enum =>
    obtain rfl := Option.some.inj hk'
    obtain ⟨labels, he⟩ := hk
    exact ⟨labels, henum he⟩
  | maybeEnum =>
    obtain rfl := Option.some.inj hk'
    rcases hk with he | ⟨labels, he⟩
    · exact Or.inl (hnone he)
    · exact Or.inr ⟨labels, henum he⟩
  | maybeIndex owner columns =>
    obtain rfl := Option.some.inj hk'
    rcases hk with he | he
    · exact Or.inl (hnone he)
    · have hdrop : C.dropType name n = none ∨ C.dropType name n = some (.index owner columns) := by
        unfold dropType
        rw [if_neg hn, he]
        simp only
        split_ifs
        · exact Or.inr rfl
        · exact Or.inl rfl
      exact hdrop

/-- What is known of a name that is free, or a table, is known to be so. -/
theorem foresee_dropTable (hC : C.Closed) (hK : Knows C E)
    (h : foresee E (.dropTable name) = some E') :
    ∃ C', C.exec (.dropTable name) = .ok C' ∧ Knows C' E' := by
  simp only [foresee] at h
  have hE' : (E' = fun n => if n = name then some .free else (E n).map (·.afterDropTable name)) ∧
      (C name = none ∨ ∃ t, C name = some (.table t)) := by
    split at h
    · rename_i hname
      exact ⟨(Option.some.inj h).symm, Or.inl (hK _ _ hname)⟩
    · rename_i d empty hname
      obtain ⟨t, ht, -⟩ := hK _ _ hname
      exact ⟨(Option.some.inj h).symm, Or.inr ⟨t, ht⟩⟩
    · rename_i d hname
      refine ⟨(Option.some.inj h).symm, (hK _ _ hname).imp id ?_⟩
      rintro ⟨t, ht, -⟩
      exact ⟨t, ht⟩
    · simp at h
  obtain ⟨rfl, hname | ⟨t, ht⟩⟩ := hE'
  · refine ⟨C, by simp [exec, hname], fun n k hk => ?_⟩
    simp only at hk
    split_ifs at hk with hn
    · obtain rfl := Option.some.inj hk
      exact hn ▸ hname
    · obtain ⟨k₀, hk₀, rfl⟩ := Option.map_eq_some_iff.mp hk
      have hholds := hK n k₀ hk₀
      cases k₀ with
      | maybeIndex owner columns =>
        simp only [Known.afterDropTable]
        rcases hholds with he | he
        · split_ifs
          · exact he
          · exact Or.inl he
        · -- the table of an index is there
          obtain ⟨t, ht⟩ := hC n owner columns he
          rw [if_neg]
          · exact Or.inr he
          · rintro rfl
            simp [hname] at ht
      | _ => exact hholds
  · refine ⟨C.dropTable name, by simp [exec, ht], fun n k hk => ?_⟩
    simp only at hk
    split_ifs at hk with hn
    · obtain rfl := Option.some.inj hk
      exact if_pos hn
    · obtain ⟨k₀, hk₀, rfl⟩ := Option.map_eq_some_iff.mp hk
      exact holds_afterDropTable (hK n k₀ hk₀) hn

theorem foresee_dropType (hK : Knows C E) (h : foresee E (.dropType name) = some E') :
    ∃ C', C.exec (.dropType name) = .ok C' ∧ Knows C' E' := by
  simp only [foresee] at h
  have hE' : (E' = fun n => if n = name then some .free else (E n).bind (·.afterDropType name)) ∧
      (C name = none ∨ ∃ labels, C name = some (.enum labels)) := by
    split at h
    · rename_i hname
      exact ⟨(Option.some.inj h).symm, Or.inl (hK _ _ hname)⟩
    · rename_i hname
      exact ⟨(Option.some.inj h).symm, Or.inr (hK _ _ hname)⟩
    · rename_i hname
      exact ⟨(Option.some.inj h).symm, hK _ _ hname⟩
    · simp at h
  obtain ⟨rfl, hname | ⟨labels, hname⟩⟩ := hE'
  · refine ⟨C, by simp [exec, hname], fun n k hk => ?_⟩
    simp only at hk
    split_ifs at hk with hn
    · obtain rfl := Option.some.inj hk
      exact hn ▸ hname
    · obtain ⟨k₀, hk₀, hk⟩ := Option.bind_eq_some_iff.mp hk
      have hholds := hK n k₀ hk₀
      cases k₀ with
      | table d empty | maybeTable d =>
        simp only [Known.afterDropType] at hk
        split_ifs at hk
        exact Option.some.inj hk ▸ hholds
      | _ => exact Option.some.inj hk ▸ hholds
  · refine ⟨C.dropType name, by simp [exec, hname], fun n k hk => ?_⟩
    simp only at hk
    split_ifs at hk with hn
    · obtain rfl := Option.some.inj hk
      exact if_pos hn
    · obtain ⟨k₀, hk₀, hk⟩ := Option.bind_eq_some_iff.mp hk
      exact holds_afterDropType (hK n k₀ hk₀) hn hk

/-- What is known stays known where the catalog has not changed, and the rest is new. -/
theorem Knows.update (hK : Knows C E) {k : Known} (hk : k.Holds (C' name))
    (hC' : ∀ n k, n ≠ name → E n = some k → k.Holds (C n) → k.Holds (C' n)) :
    Knows C' (Function.update E name (some k)) := by
  intro n k' hk'
  by_cases hn : n = name
  · subst hn
    rw [Function.update_self] at hk'
    exact Option.some.inj hk' ▸ hk
  · rw [Function.update_of_ne hn] at hk'
    exact hC' n k' hn hk' (hK n k' hk')

theorem foresee_createType {labels : List String} (hK : Knows C E)
    (h : foresee E (.createType name labels) = some E') :
    ∃ C', C.exec (.createType name labels) = .ok C' ∧ Knows C' E' := by
  simp only [foresee] at h
  split at h
  · rename_i hE
    obtain rfl := Option.some.inj h
    have hname : C name = none := hK _ _ hE
    refine ⟨Function.update C name _, by simp only [exec, hname],
      hK.update ⟨labels, Function.update_self _ _ _⟩ ?_⟩
    intro n k hn _ hk
    rwa [Function.update_of_ne hn]
  · simp at h

theorem ready_of_known {d : TableDef} {constraints : List (String × List String)}
    (hC : C.Closed) (hK : Knows C E) (hname : C name = none)
    (hready : ready E name d constraints = true) :
    (∀ c ∈ constraints, C c.1 = none ∧ E c.1 = some (.maybeIndex name c.2)) ∧
      ∀ ifNotExists, C.exec (.createTable ifNotExists name d constraints) =
        .ok (C.createTable name d constraints) := by
  simp only [ready, Bool.and_eq_true, List.all_eq_true, decide_eq_true_eq] at hready
  obtain ⟨⟨htypes, hkeys⟩, hconstraints⟩ := hready
  have hfree : ∀ c ∈ constraints, C c.1 = none := by
    intro c hc
    rcases hK _ _ (hconstraints c hc).2 with he | he
    · exact he
    · -- an index of a table that is not there
      obtain ⟨t, ht⟩ := hC _ _ _ he
      simp [hname] at ht
  refine ⟨fun c hc => ⟨hfree c hc, (hconstraints c hc).2⟩, fun ifNotExists => ?_⟩
  have htypes' : (d.columns.all fun c => C.hasType c.type) = true := by
    refine List.all_eq_true.mpr fun c hc => ?_
    have hc := htypes c hc
    cases htype : c.type with
    | builtin type => rfl
    | named type =>
      simp only [htype, decide_eq_true_eq] at hc
      obtain ⟨labels, he⟩ := hK _ _ hc
      simp [hasType, he]
  have hkeys' : d.foreignKeys.all C.hasKey = true := by
    refine List.all_eq_true.mpr fun fk hfk => ?_
    have hfk := hkeys fk hfk
    split at hfk
    · rename_i d' empty hE
      obtain ⟨t, ht, -, hkeys, -⟩ := hK _ _ hE
      simp only [hasKey, ht, hkeys]
      exact hfk
    · simp at hfk
  have hconstraints' : (constraints.all fun c => c.1 ≠ name && (C c.1).isNone) = true := by
    refine List.all_eq_true.mpr fun c hc => ?_
    simp [(hconstraints c hc).1, hfree c hc]
  simp only [exec, hname]
  rw [htypes', hkeys', hconstraints']
  rfl

theorem knows_createTable {d : TableDef} {constraints : List (String × List String)} {empty : Bool}
    (hK : Knows C E) (hname : C name = none)
    (hfree : ∀ c ∈ constraints, C c.1 = none ∧ E c.1 = some (.maybeIndex name c.2)) :
    Knows (C.createTable name d constraints) (Function.update E name (some (.table d empty))) := by
  refine hK.update ⟨_, if_pos rfl, rfl, rfl, fun _ => rfl⟩ fun n k hn hE hk => ?_
  by_cases ho : ∃ o, C n = some o
  · obtain ⟨o, ho⟩ := ho
    rwa [createTable_of_some hname (fun c hc => (hfree c hc).1) ho, ← ho]
  · have hnone : C n = none := Option.not_isSome_iff_eq_none.mp fun hs =>
      ho (Option.isSome_iff_exists.mp hs)
    unfold createTable
    rw [if_neg hn]
    split
    · rename_i columns hlookup
      obtain ⟨l, l', rfl, -⟩ := List.lookup_eq_some_iff.mp hlookup
      have hknown := (hfree (n, columns) (by simp)).2
      obtain rfl := Option.some.inj (hE.symm.trans hknown)
      exact Or.inr rfl
    · exact hk

theorem foresee_createTable {ifNotExists : Bool} {d : TableDef}
    {constraints : List (String × List String)} (hC : C.Closed) (hK : Knows C E)
    (h : foresee E (.createTable ifNotExists name d constraints) = some E') :
    ∃ C', C.exec (.createTable ifNotExists name d constraints) = .ok C' ∧ Knows C' E' := by
  simp only [foresee] at h
  split at h
  · rename_i hE
    split_ifs at h with hready
    obtain rfl := Option.some.inj h
    have hname : C name = none := hK _ _ hE
    obtain ⟨hfree, hexec⟩ := ready_of_known hC hK hname hready
    exact ⟨_, hexec _, knows_createTable hK hname hfree⟩
  · rename_i d' hE
    split_ifs at h with hready
    obtain rfl := Option.some.inj h
    simp only [Bool.and_eq_true, decide_eq_true_eq] at hready
    obtain ⟨⟨⟨hready, hif⟩, hcolumns⟩, hkeys⟩ := hready
    rcases hK _ _ hE with hname | ⟨t, ht, hcolumns', hkeys', -⟩
    · obtain ⟨hfree, hexec⟩ := ready_of_known hC hK hname hready
      exact ⟨_, hexec _, knows_createTable hK hname hfree⟩
    · refine ⟨C, by simp only [exec, ht, if_pos hif], hK.update ?_ fun _ _ _ _ hk => hk⟩
      exact ⟨t, ht, hcolumns'.trans hcolumns, hkeys'.trans hkeys, nofun⟩
  · rename_i d' empty hE
    split_ifs at h with hif
    obtain rfl := Option.some.inj h
    obtain ⟨t, ht, -⟩ := hK _ _ hE
    exact ⟨C, by simp only [exec, ht, if_pos hif], hK⟩
  · simp at h

theorem foresee_createIndex {ifNotExists : Bool} {table : String} {columns : List String}
    (hK : Knows C E) (h : foresee E (.createIndex ifNotExists name table columns) = some E') :
    ∃ C', C.exec (.createIndex ifNotExists name table columns) = .ok C' ∧ Knows C' E' := by
  simp only [foresee] at h
  split at h
  · rename_i d empty htable
    obtain ⟨t, ht, hcolumns, -⟩ := hK _ _ htable
    split_ifs at h with hsub
    have hexec : C.exec (.createIndex ifNotExists name table columns) =
        match C name with
        | none => .ok (Function.update C name (some (.index table columns)))
        | some _ => if ifNotExists then .ok C else .error .duplicateTable := by
      simp only [exec, ht, hcolumns]
      rw [hsub]
      rfl
    have hnew : C name = none →
        ∃ C', C.exec (.createIndex ifNotExists name table columns) = .ok C' ∧
        Knows C' (Function.update E name (some (.maybeIndex table columns))) := by
      intro hname
      refine ⟨_, by rw [hexec, hname], hK.update (Or.inr (Function.update_self _ _ _)) ?_⟩
      intro n k hn _ hk
      rwa [Function.update_of_ne hn]
    split at h
    · rename_i hE
      obtain rfl := Option.some.inj h
      exact hnew (hK _ _ hE)
    · rename_i owner columns' hE
      split_ifs at h with hif
      obtain rfl := Option.some.inj h
      simp only [Bool.and_eq_true, decide_eq_true_eq] at hif
      obtain ⟨⟨hif, rfl⟩, rfl⟩ := hif
      rcases hK _ _ hE with hname | hname
      · have hsame : Function.update E name (some (.maybeIndex owner columns')) = E := by
          rw [← hE, Function.update_eq_self]
        exact hsame ▸ hnew hname
      · exact ⟨C, by rw [hexec, hname, if_pos hif], hK⟩
    · simp at h
  · simp at h

/-- **What is foreseen of a statement** comes true. -/
theorem foresee_sound {st : DdlStmt} (hC : C.Closed) (hK : Knows C E)
    (h : foresee E st = some E') : ∃ C', C.exec st = .ok C' ∧ C'.Closed ∧ Knows C' E' := by
  suffices hexec : ∃ C', C.exec st = .ok C' ∧ Knows C' E' by
    obtain ⟨C', hexec, hK'⟩ := hexec
    exact ⟨C', hexec, exec_closed hC hexec, hK'⟩
  cases st with
  | dropTable name => exact foresee_dropTable hC hK h
  | dropType name => exact foresee_dropType hK h
  | createType name labels => exact foresee_createType hK h
  | createTable ifNotExists name d constraints => exact foresee_createTable hC hK h
  | createIndex ifNotExists name table columns => exact foresee_createIndex hK h

end foresee

/-- **What is foreseen of a script** comes true. -/
theorem foreseeAll_sound {E' : Foresight} : ∀ {sts : List DdlStmt} {C : Catalog V} {E : Foresight},
    C.Closed → Knows C E → foreseeAll E sts = some E' →
      ∃ C', C.run sts = .ok C' ∧ C'.Closed ∧ Knows C' E'
  | [], C, E, hC, hK, h => ⟨C, rfl, hC, Option.some.inj h ▸ hK⟩
  | st :: sts, C, E, hC, hK, h => by
    obtain ⟨E₁, hE₁, h⟩ := Option.bind_eq_some_iff.mp h
    obtain ⟨C₁, hexec, hC₁, hK₁⟩ := foresee_sound hC hK hE₁
    obtain ⟨C', hrun, hC', hK'⟩ := foreseeAll_sound hC₁ hK₁ h
    exact ⟨C', by simp only [run, hexec, hrun], hC', hK'⟩

end Catalog

end Payflow.Lib
