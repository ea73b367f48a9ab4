import Payflow.Lib.Local

/-! # Rows with keys of their own

A table to which transactions only add. A statement that inserts a row gives it a key that no row
has, and locks the key until the transaction ends. So the keys in the table are distinct in every
run, whatever the open transactions insert, and every row is as it was given (`Inserted`). -/

namespace Payflow.Lib

variable {Db Write Lock Stmt Pick Block Ext ε Ans Start World Row Key : Type}
  {SRes : Stmt → Type} {BRes : Block → Type} {ERes : Ext → Type}

theorem Store.rows_applyAll {S : Store Db Write Lock Stmt Pick SRes} {rows : Db → List Row}
    {new? : Write → Option Row} (hw : ∀ D w, rows (S.apply D w) = rows D ++ (new? w).toList) :
    ∀ (ws : List Write) (D : Db), rows (S.applyAll D ws) = rows D ++ ws.filterMap new?
  | [], D => by simp [Store.applyAll]
  | w :: ws, D => by
    show rows (S.applyAll (S.apply D w) ws) = _
    rw [Store.rows_applyAll hw ws, hw, List.append_assoc]
    congr 1
    cases h : new? w <;> simp [h]

/-- A table with a lock for each key, and what the statements of a transaction that has started at a
time give to their rows. -/
structure KeyedTable (Db Write Lock Row Key : Type) where
  rows : Db → List Row
  new? : Write → Option Row
  key : Row → Key
  lock : Key → Lock
  Given : ℕ → Row → Prop

namespace KeyedTable

variable (T : KeyedTable Db Write Lock Row Key)

/-- The rows among the writes of a transaction. -/
def newRows (ws : List Write) : List Row := ws.filterMap T.new?

/-- The row is as it was given, and its key is new and locked. -/
structure Fresh (D : Db) (now : ℕ) (ls : List Lock) (row : Row) : Prop where
  given : T.Given now row
  locked : T.lock (T.key row) ∈ ls
  fresh : T.key row ∉ (T.rows D).map T.key

/-- Writes only add to the table, and a statement inserts a fresh row or none. -/
structure Lawful (S : Store Db Write Lock Stmt Pick SRes) : Prop where
  apply : ∀ D w, T.rows (S.apply D w) = T.rows D ++ (T.new? w).toList
  exec : ∀ {v D st} {r : SRes st} {ws}, S.exec v D st = some (r, ws) →
    T.newRows ws = [] ∨ ∃ row, T.newRows ws = [row] ∧ T.Fresh D v.now (S.locks v D st) row

/-- The table and what open transactions will add to it. -/
structure Inserted {M : Machine Db Write Lock Stmt Pick Block Ext ε Ans Start World SRes BRes ERes}
    (s : Machine.State M) : Prop where
  keys : ((T.rows s.db).map T.key).Nodup
  rows : ∀ row ∈ T.rows s.db, ∃ now ≤ s.clock, T.Given now row
  open_keys : ∀ (i : ℕ) x b (t : Txn Write Lock Stmt SRes ε (BRes b)) k,
    s.procs[i]? = some ⟨x, .inTxn b t k⟩ → ((T.newRows t.writes).map T.key).Nodup
  open_rows : ∀ (i : ℕ) x b (t : Txn Write Lock Stmt SRes ε (BRes b)) k,
    s.procs[i]? = some ⟨x, .inTxn b t k⟩ → ∀ row ∈ T.newRows t.writes,
      T.Fresh s.db t.now t.locks row

variable {T}

theorem Lawful.rows_applyAll {S : Store Db Write Lock Stmt Pick SRes} (hT : T.Lawful S)
    (ws : List Write) (D : Db) : T.rows (S.applyAll D ws) = T.rows D ++ T.newRows ws :=
  Store.rows_applyAll hT.apply ws D

theorem Lawful.fresh_stmt {S : Store Db Write Lock Stmt Pick SRes} (hT : T.Lawful S) {D : Db}
    {ws ws' : List Write} {ls : List Lock} {st : Stmt} {r : SRes st} {v : Env Pick}
    (hx : S.exec v (S.applyAll D ws) st = some (r, ws'))
    (hkeys : ((T.newRows ws).map T.key).Nodup)
    (hrows : ∀ row ∈ T.newRows ws, T.Fresh D v.now ls row) :
    ((T.newRows (ws ++ ws')).map T.key).Nodup ∧ ∀ row ∈ T.newRows (ws ++ ws'),
      T.Fresh D v.now (ls ++ S.locks v (S.applyAll D ws) st) row := by
  have happ : T.newRows (ws ++ ws') = T.newRows ws ++ T.newRows ws' := List.filterMap_append
  have hold : ∀ row ∈ T.newRows ws,
      T.Fresh D v.now (ls ++ S.locks v (S.applyAll D ws) st) row := fun row hrow =>
    { hrows row hrow with locked := List.mem_append_left _ (hrows row hrow).locked }
  rw [happ]
  rcases hT.exec hx with hnone | ⟨row, hone, hfresh⟩
  · rw [hnone, List.append_nil]
    exact ⟨hkeys, hold⟩
  · rw [hone]
    have hnew : T.key row ∉ (T.rows D).map T.key ∧ T.key row ∉ (T.newRows ws).map T.key := by
      have hfresh' := hfresh.fresh
      rw [hT.rows_applyAll, List.map_append, List.mem_append, not_or] at hfresh'
      exact hfresh'
    constructor
    · rw [List.map_append, List.nodup_append]
      refine ⟨hkeys, by simp, fun a ha c hc hac => ?_⟩
      obtain rfl := List.mem_singleton.mp hc
      have hac : a = T.key row := hac
      exact hnew.2 (hac ▸ ha)
    · intro row' hrow'
      rcases List.mem_append.mp hrow' with hrow' | hrow'
      · exact hold row' hrow'
      · obtain rfl := List.mem_singleton.mp hrow'
        exact ⟨hfresh.given, List.mem_append_right _ hfresh.locked, hnew.1⟩

/-! ### Along a run -/

section run

variable {M : Machine Db Write Lock Stmt Pick Block Ext ε Ans Start World SRes BRes ERes}
  {G : Rely Db Lock} {K : Contract Db Write Block ε BRes} {s s' : Machine.State M}

/-- The rows of an open transaction stay fresh when another one commits. -/
theorem Inserted.fresh_commit (hT : T.Lawful M.toStore) (h : Machine.Good M G K s)
    (hn : T.Inserted s) {i j : ℕ} (hij : i ≠ j) {b b' : Block} {now : ℕ} {ws : List Write}
    {r : BRes b} (hc : Machine.AtCommit s j b now ws r) {x : Start}
    {t : Txn Write Lock Stmt SRes ε (BRes b')}
    {k : Except ε (BRes b') → Prog (Call Block Ext) (Call.Res BRes ERes ε) ε Ans}
    (hp : s.procs[i]? = some ⟨x, .inTxn b' t k⟩) {row : Row} (hrow : row ∈ T.newRows t.writes) :
    T.Fresh (M.applyAll s.db ws) t.now t.locks row := by
  have hfresh := hn.open_rows i x b' t k hp row hrow
  refine { hfresh with fresh := fun hmem => ?_ }
  rw [hT.rows_applyAll, List.map_append, List.mem_append] at hmem
  rcases hmem with hmem | hmem
  · exact hfresh.fresh hmem
  · obtain ⟨row', hrow', hkey⟩ := List.mem_map.mp hmem
    obtain ⟨y, ls, k', hq⟩ := hc
    have hlocked := (hn.open_rows j _ _ _ _ hq row' hrow').locked
    rw [hkey] at hlocked
    exact h.disjoint i j _ _ hij hp hq _ hfresh.locked hlocked

variable [DecidableEq Lock]

theorem Inserted.step (hT : T.Lawful M.toStore) (h : Machine.Good M G K s) (hn : T.Inserted s)
    {a : Action Start Pick} (hs : M.step s a = some s') : T.Inserted s' := by
  have hclock : s.clock ≤ s'.clock := Machine.clock_le hs
  have hopen : ∀ (i : ℕ) x b (t : Txn Write Lock Stmt SRes ε (BRes b)) k,
      s'.procs[i]? = some ⟨x, .inTxn b t k⟩ → ((T.newRows t.writes).map T.key).Nodup ∧
        ∀ row ∈ T.newRows t.writes, T.Fresh s'.db t.now t.locks row := by
    intro i x b t k hq
    cases Machine.step_process hs hq with
    | own ha hp hadv =>
      obtain ⟨hdb, ⟨hws, -⟩ | ⟨o, kk, ws, ls, r, ws', rfl, hx, hws, hls⟩⟩ :=
        Machine.advance_open hadv
      · rw [hws]
        exact ⟨List.nodup_nil, fun row hrow => absurd hrow List.not_mem_nil⟩
      · rw [hws, hls, hdb]
        exact hT.fresh_stmt hx (hn.open_keys i _ _ _ _ hp) (hn.open_rows i _ _ _ _ hp)
    | other hp =>
      refine ⟨hn.open_keys i x b t k hp, fun row hrow => ?_⟩
      rcases Machine.step_commit h hs with hdb | ⟨j, pick, b', now, ws, r, rfl, hc, -, -, hdb⟩
      · rw [hdb]
        exact hn.open_rows i x b t k hp row hrow
      · have hij : i ≠ j := by
          rintro rfl
          obtain ⟨y, p, hrun⟩ := hc.leaves hs
          rw [hq] at hrun
          cases hrun
        rw [hdb]
        exact hn.fresh_commit hT h hij hc hp hrow
  refine ⟨?_, ?_, fun i x b t k hq => (hopen i x b t k hq).1, fun i x b t k hq =>
    (hopen i x b t k hq).2⟩
  · rcases Machine.step_commit h hs with
      hdb | ⟨j, pick, b', now, ws, r, rfl, ⟨y, ls, k, hp⟩, -, -, hdb⟩
    · rw [hdb]
      exact hn.keys
    · rw [hdb, hT.rows_applyAll, List.map_append, List.nodup_append]
      refine ⟨hn.keys, hn.open_keys j _ _ _ _ hp, fun c hc d hd hcd => ?_⟩
      obtain ⟨row, hrow, rfl⟩ := List.mem_map.mp hd
      exact (hn.open_rows j _ _ _ _ hp row hrow).fresh (hcd ▸ hc)
  · have hold : ∀ row ∈ T.rows s.db, ∃ now ≤ s'.clock, T.Given now row := by
      intro row hrow
      obtain ⟨now, hnow, hgiven⟩ := hn.rows row hrow
      exact ⟨now, Nat.le_trans hnow hclock, hgiven⟩
    rcases Machine.step_commit h hs with
      hdb | ⟨j, pick, b', now, ws, r, rfl, ⟨y, ls, k, hp⟩, -, -, hdb⟩
    · rw [hdb]
      exact hold
    · rw [hdb, hT.rows_applyAll]
      intro row hrow
      rcases List.mem_append.mp hrow with hrow | hrow
      · exact hold row hrow
      · have hopenOk : Machine.OpenOk M G K s.db s.clock _ ⟨.pure r, ws, ls, now⟩ k :=
          h.status _ (List.mem_of_getElem? hp)
        exact ⟨now, Nat.le_trans hopenOk.now_le hclock, (hn.open_rows j _ _ _ _ hp row hrow).given⟩

/-- **The rows of the table** in every state that is reached. -/
theorem inserted_of_reachable (hT : T.Lawful M.toStore) (H : M.Fulfils G K)
    {C : Machine.State M → Action Start Pick → Prop} {s₀ : Machine.State M}
    (h₀ : Machine.Good M G K s₀) (hrows : T.rows s₀.db = []) (hprocs : s₀.procs = [])
    (h : Machine.ReachableBy M C s₀ s) : T.Inserted s := by
  induction h with
  | refl => exact ⟨by simp [hrows], by simp [hrows], by simp [hprocs], by simp [hprocs]⟩
  | step hr _ hs ih => exact ih.step hT (hr.good H h₀) hs

end run

end KeyedTable

end Payflow.Lib
