import Payflow.Lib.Atomic

/-! # One process among others

`step_process` says what a step of the machine does to one process, statement by statement: the
process takes the step itself, or it stays where it is while the store moves on, or it has just
been started or killed. A property of one process that its own steps keep, and that the commits of
others do not break, then holds along a run (`Local`, `ReachableBy.local`). -/

namespace Payflow.Lib

variable {Db Write Lock Stmt Pick Block Ext ε Ans Start World : Type}
  {SRes : Stmt → Type} {BRes : Block → Type} {ERes : Ext → Type}

namespace Machine

variable {M : Machine Db Write Lock Stmt Pick Block Ext ε Ans Start World SRes BRes ERes}
  {G : Rely Db Lock} {K : Contract Db Write Block ε BRes} [DecidableEq Lock]

theorem step_le (H : M.Fulfils G K) {s s' : State M} (h : Good M G K s) {a : Action Start Pick}
    (hs : M.step s a = some s') : G.Le s.db s'.db := by
  have hsim := (good_step H h hs).2
  unfold Simulates at hsim
  split at hsim
  · have hdb : (erase M s').db = (erase M s).db := by rw [hsim]
    have hdb : s'.db = s.db := hdb
    rw [hdb]
    exact H.rely.le_refl _
  · generalize he : erase M s = t at hsim
    generalize he' : erase M s' = t' at hsim
    have hdb : t.db = s.db := he ▸ rfl
    have hdb' : t'.db = s'.db := he' ▸ rfl
    rw [← hdb, ← hdb']
    cases hsim with
    | commit hp hnow hinv hpre hpost => exact (H.keep hinv hpre hpost).2
    | _ => exact H.rely.le_refl _

/-- A statement of an open transaction: it has been executed on what the transaction sees. -/
theorem advance_stmt {s : State M} {pid : ℕ} {pick : Pick} {x : Start} {b : Block} {o : Stmt}
    {kk : SRes o → Prog Stmt SRes ε (BRes b)} {ws : List Write} {ls : List Lock} {now : ℕ}
    {k : Except ε (BRes b) → Prog (Call Block Ext) (Call.Res BRes ERes ε) ε Ans}
    {db : Db} {w : World}
    {st : Status Write Lock Stmt Block Ext ε Ans SRes BRes ERes}
    (hs : advance M s pid pick x (.inTxn b ⟨.op o kk, ws, ls, now⟩ k) = some (db, w, st)) :
    ∃ r ws', M.exec ⟨now, pick⟩ (M.applyAll s.db ws) o = some (r, ws') ∧ db = s.db ∧
      st = .inTxn b ⟨kk r, ws ++ ws',
        ls ++ M.locks ⟨now, pick⟩ (M.applyAll s.db ws) o, now⟩ k := by
  simp only [advance] at hs
  split_ifs at hs with hfree
  split at hs
  · rename_i r ws' hx
    simp only [Option.some.injEq, Prod.mk.injEq] at hs
    obtain ⟨rfl, -, rfl⟩ := hs
    exact ⟨r, ws', hx, rfl, rfl⟩
  · simp at hs

/-- An external action gives the process a result and changes the world. -/
theorem advance_ext {s : State M} {pid : ℕ} {pick : Pick} {x : Start} {e : Ext}
    {k : ERes e → Prog (Call Block Ext) (Call.Res BRes ERes ε) ε Ans} {db : Db} {w : World}
    {st : Status Write Lock Stmt Block Ext ε Ans SRes BRes ERes}
    (hs : advance M s pid pick x (.run (.op (.ext e) k)) = some (db, w, st)) :
    ∃ r, M.ext pid pick s.world e = some (r, w) ∧ db = s.db ∧ st = .run (k r) := by
  simp only [advance] at hs
  split at hs
  · rename_i r w' hx
    simp only [Option.some.injEq, Prod.mk.injEq] at hs
    obtain ⟨rfl, rfl, rfl⟩ := hs
    exact ⟨r, hx, rfl, rfl⟩
  · simp at hs

/-- The process is about to commit the transaction, with these writes. -/
def AtCommit (s : State M) (pid : ℕ) (b : Block) (now : ℕ) (ws : List Write) (r : BRes b) : Prop :=
  ∃ x ls k, s.procs[pid]? = some ⟨x, .inTxn b ⟨.pure r, ws, ls, now⟩ k⟩

theorem AtCommit.step {s s' : State M} (h : Good M G K s) {pid : ℕ} {b : Block} {now : ℕ}
    {ws : List Write} {r : BRes b} (hc : AtCommit s pid b now ws r) {pick : Pick}
    (hs : M.step s (.step pid pick) = some s') :
    K.Pre b s.db ∧ K.Post b now s.db ws r ∧ s'.db = M.applyAll s.db ws := by
  obtain ⟨x, ls, k, hp⟩ := hc
  have hopen : OpenOk M G K s.db s.clock b ⟨.pure r, ws, ls, now⟩ k :=
    h.status _ (List.mem_of_getElem? hp)
  obtain ⟨hpre, hpost, -⟩ := hopen.commit
  simp only [Machine.step, hp, advance, Option.some.injEq] at hs
  subst hs
  exact ⟨hpre, hpost, rfl⟩

/-- **What a step does to the store**: nothing, or it commits what a transaction has written. -/
theorem step_commit {s s' : State M} (h : Good M G K s) {a : Action Start Pick}
    (hs : M.step s a = some s') : s'.db = s.db ∨ ∃ pid pick b now ws, ∃ r : BRes b,
      a = .step pid pick ∧ AtCommit s pid b now ws r ∧ K.Pre b s.db ∧ K.Post b now s.db ws r ∧
        s'.db = M.applyAll s.db ws := by
  cases a with
  | start x =>
    simp only [step] at hs
    split at hs
    · obtain rfl := Option.some.inj hs
      exact Or.inl rfl
    · simp at hs
  | kill pid =>
    simp only [step] at hs
    split at hs
    · split_ifs at hs
      obtain rfl := Option.some.inj hs
      exact Or.inl rfl
    · simp at hs
  | tick n =>
    obtain rfl := Option.some.inj hs
    exact Or.inl rfl
  | step pid pick =>
    have hs₀ := hs
    simp only [step] at hs
    split at hs
    · rename_i p hp
      split at hs
      · rename_i db w st' hadv
        obtain rfl := Option.some.inj hs
        obtain ⟨x, st⟩ := p
        cases st with
        | run p =>
          cases p with
          | pure a | raise e =>
            obtain ⟨rfl, -⟩ := Prod.mk.inj (Option.some.inj hadv)
            exact Or.inl rfl
          | op o k =>
            cases o with
            | txn b =>
              obtain ⟨rfl, -⟩ := Prod.mk.inj (Option.some.inj hadv)
              exact Or.inl rfl
            | ext e =>
              simp only [advance] at hadv
              split at hadv
              · obtain ⟨rfl, -⟩ := Prod.mk.inj (Option.some.inj hadv)
                exact Or.inl rfl
              · simp at hadv
        | inTxn b t k =>
          obtain ⟨rest, ws, ls, now⟩ := t
          cases rest with
          | pure r =>
            have hc : AtCommit s pid b now ws r := ⟨x, ls, k, hp⟩
            obtain ⟨hpre, hpost, hdb⟩ := hc.step h hs₀
            exact Or.inr ⟨pid, pick, b, now, ws, r, rfl, hc, hpre, hpost, hdb⟩
          | raise e =>
            obtain ⟨rfl, -⟩ := Prod.mk.inj (Option.some.inj hadv)
            exact Or.inl rfl
          | op o kk =>
            obtain ⟨-, -, -, rfl, -⟩ := advance_stmt hadv
            exact Or.inl rfl
        | done out => simp [advance] at hadv
        | killed => simp [advance] at hadv
      · simp at hs
    · simp at hs

omit [DecidableEq Lock] in
/-- A process that is seen between two operations, and not before a transaction, is there. -/
theorem procs_of_erase {s : State M} {pid : ℕ} {x : Start}
    {p : Prog (Call Block Ext) (Call.Res BRes ERes ε) ε Ans}
    (h : (erase M s).procs[pid]? = some ⟨x, .run p⟩) (hp : ∀ b k, p ≠ .op (.txn b) k) :
    s.procs[pid]? = some ⟨x, .run p⟩ := by
  simp only [erase, List.getElem?_map, Option.map_eq_some_iff] at h
  obtain ⟨⟨y, st⟩, hst, he⟩ := h
  cases st with
  | inTxn b t k =>
    have hrun : Status.run (.op (.txn b) k) = Status.run p := (Proc.mk.inj he).2
    exact absurd (Status.run.inj hrun).symm (hp b k)
  | _ => exact he ▸ hst

omit [DecidableEq Lock] in
theorem action_of_event {s : State M} {a : Action Start Pick} {pid : ℕ} :
    (∀ {e}, event M s a = some (.ext pid e) → ∃ pick, a = .step pid pick) ∧
    (event M s a = some (.finish pid) → ∃ pick, a = .step pid pick) ∧
    (event M s a = some (.kill pid) → a = .kill pid) := by
  refine ⟨fun h => ?_, fun h => ?_, fun h => ?_⟩ <;> cases a with
  | step q pick =>
    simp only [event] at h
    split at h <;> simp_all
  | _ => simp_all [event]

/-- What a step of the machine is for the process `q`. -/
inductive ProcStep (s s' : State M) (a : Action Start Pick) (q : ℕ) (x : Start) :
    Status Write Lock Stmt Block Ext ε Ans SRes BRes ERes → Prop
  | own {st st' pick w} : a = .step q pick → s.procs[q]? = some ⟨x, st⟩ →
      advance M s q pick x st = some (s'.db, w, st') → ProcStep s s' a q x st'
  | other {st} : s.procs[q]? = some ⟨x, st⟩ → ProcStep s s' a q x st
  | killed {st} : a = .kill q → s.procs[q]? = some ⟨x, st⟩ → ProcStep s s' a q x .killed
  | started {p} : a = .start x → s.procs[q]? = none → M.start s.world x = some p →
      ProcStep s s' a q x (.run p)

theorem step_own {s s' : State M} {pid : ℕ} {pick : Pick}
    (hs : M.step s (.step pid pick) = some s') :
    ∃ x st st', s.procs[pid]? = some ⟨x, st⟩ ∧ s'.procs[pid]? = some ⟨x, st'⟩ ∧
      advance M s pid pick x st = some (s'.db, s'.world, st') := by
  simp only [step] at hs
  split at hs
  · rename_i p hp
    split at hs
    · rename_i db w st' hadv
      obtain rfl := Option.some.inj hs
      have hlt := (List.getElem?_eq_some_iff.mp hp).1
      exact ⟨p.origin, p.status, st', hp, List.getElem?_set_self hlt, hadv⟩
    · simp at hs
  · simp at hs

/-- What a step does to the world: nothing, or it is the end of a process or an external action. -/
theorem step_world {s s' : State M} {a : Action Start Pick} (hs : M.step s a = some s') :
    s'.world = s.world ∨ (∃ x out, s'.world = M.finish x out s.world) ∨
      ∃ pid pick e r, M.ext pid pick s.world e = some (r, s'.world) := by
  cases a with
  | start x =>
    simp only [step] at hs
    split at hs
    · obtain rfl := Option.some.inj hs
      exact Or.inl rfl
    · simp at hs
  | kill pid =>
    simp only [step] at hs
    split at hs
    · split_ifs at hs
      obtain rfl := Option.some.inj hs
      exact Or.inl rfl
    · simp at hs
  | tick n =>
    obtain rfl := Option.some.inj hs
    exact Or.inl rfl
  | step pid pick =>
    obtain ⟨x, st, st', -, -, hadv⟩ := step_own hs
    cases st with
    | run p =>
      cases p with
      | pure a =>
        simp only [advance, Option.some.injEq, Prod.mk.injEq] at hadv
        exact Or.inr (Or.inl ⟨x, .ok a, hadv.2.1.symm⟩)
      | raise e =>
        simp only [advance, Option.some.injEq, Prod.mk.injEq] at hadv
        exact Or.inr (Or.inl ⟨x, .error e, hadv.2.1.symm⟩)
      | op o k =>
        cases o with
        | txn b =>
          simp only [advance, Option.some.injEq, Prod.mk.injEq] at hadv
          exact Or.inl hadv.2.1.symm
        | ext e =>
          obtain ⟨r, hw, -, -⟩ := advance_ext hadv
          exact Or.inr (Or.inr ⟨pid, pick, e, r, hw⟩)
    | inTxn b t k =>
      obtain ⟨rest, ws, ls, now⟩ := t
      cases rest with
      | pure r | raise e =>
        simp only [advance, Option.some.injEq, Prod.mk.injEq] at hadv
        exact Or.inl hadv.2.1.symm
      | op o kk =>
        simp only [advance] at hadv
        split_ifs at hadv
        split at hadv
        · simp only [Option.some.injEq, Prod.mk.injEq] at hadv
          exact Or.inl hadv.2.1.symm
        · simp at hadv
    | done out => simp [advance] at hadv
    | killed => simp [advance] at hadv

/-- A process that is in a transaction after its step has just begun it, or has
executed a statement. -/
theorem advance_open {s : State M} {pid : ℕ} {pick : Pick} {x : Start} {db : Db} {w : World}
    {st : Status Write Lock Stmt Block Ext ε Ans SRes BRes ERes} {b : Block}
    {t : Txn Write Lock Stmt SRes ε (BRes b)}
    {k : Except ε (BRes b) → Prog (Call Block Ext) (Call.Res BRes ERes ε) ε Ans}
    (hs : advance M s pid pick x st = some (db, w, .inTxn b t k)) : db = s.db ∧
      ((t.writes = [] ∧ t.locks = []) ∨
      ∃ o kk ws ls r ws', st = .inTxn b ⟨.op o kk, ws, ls, t.now⟩ k ∧
        M.exec ⟨t.now, pick⟩ (M.applyAll s.db ws) o = some (r, ws') ∧ t.writes = ws ++ ws' ∧
        t.locks = ls ++ M.locks ⟨t.now, pick⟩ (M.applyAll s.db ws) o) := by
  cases st with
  | run p =>
    cases p with
    | pure a | raise e => simp [advance] at hs
    | op o k' =>
      cases o with
      | txn b' =>
        simp only [advance, Option.some.injEq, Prod.mk.injEq] at hs
        obtain ⟨rfl, -, hst⟩ := hs
        cases hst
        exact ⟨rfl, Or.inl ⟨rfl, rfl⟩⟩
      | ext e =>
        simp only [advance] at hs
        split at hs <;> simp at hs
  | inTxn b' t' k' =>
    obtain ⟨rest, ws, ls, now⟩ := t'
    cases rest with
    | pure r | raise e => simp [advance] at hs
    | op o kk =>
      obtain ⟨r, ws', hx, rfl, hst⟩ := advance_stmt hs
      cases hst
      exact ⟨rfl, Or.inr ⟨o, kk, ws, ls, r, ws', rfl, hx, rfl, rfl⟩⟩
  | done out => simp [advance] at hs
  | killed => simp [advance] at hs

theorem AtCommit.leaves {s s' : State M} {pid : ℕ} {b : Block} {now : ℕ} {ws : List Write}
    {r : BRes b} (hc : AtCommit s pid b now ws r) {pick : Pick}
    (hs : M.step s (.step pid pick) = some s') : ∃ x p, s'.procs[pid]? = some ⟨x, .run p⟩ := by
  obtain ⟨x, ls, k, hp⟩ := hc
  obtain ⟨y, st, st', hp', hq, hadv⟩ := step_own hs
  obtain ⟨rfl, rfl⟩ := Proc.mk.inj (Option.some.inj (hp.symm.trans hp'))
  simp only [advance, Option.some.injEq, Prod.mk.injEq] at hadv
  obtain ⟨-, -, rfl⟩ := hadv
  exact ⟨x, _, hq⟩

theorem step_process {s s' : State M} {a : Action Start Pick} (hs : M.step s a = some s') {q : ℕ}
    {x : Start} {st : Status Write Lock Stmt Block Ext ε Ans SRes BRes ERes}
    (hq : s'.procs[q]? = some ⟨x, st⟩) : ProcStep s s' a q x st := by
  cases a with
  | start y =>
    simp only [step] at hs
    split at hs
    · rename_i p hstart
      obtain rfl := Option.some.inj hs
      rw [List.getElem?_append] at hq
      split_ifs at hq with hlt
      · exact .other hq
      · have hnone : s.procs[q]? = none := List.getElem?_eq_none (Nat.le_of_not_lt hlt)
        obtain ⟨rfl, rfl⟩ := Proc.mk.inj (List.mem_singleton.mp (List.mem_of_getElem? hq))
        exact .started rfl hnone hstart
    · simp at hs
  | step pid pick =>
    simp only [step] at hs
    split at hs
    · rename_i p hp
      split at hs
      · rename_i db w st' hadv
        obtain rfl := Option.some.inj hs
        by_cases hpid : pid = q
        · subst hpid
          have hlt := (List.getElem?_eq_some_iff.mp hp).1
          rw [List.getElem?_set_self hlt] at hq
          obtain ⟨rfl, rfl⟩ := Proc.mk.inj (Option.some.inj hq)
          exact .own rfl hp hadv
        · rw [List.getElem?_set_ne hpid] at hq
          exact .other hq
      · simp at hs
    · simp at hs
  | kill pid =>
    simp only [step] at hs
    split at hs
    · rename_i p hp
      split_ifs at hs with hlive
      obtain rfl := Option.some.inj hs
      by_cases hpid : pid = q
      · subst hpid
        have hlt := (List.getElem?_eq_some_iff.mp hp).1
        rw [List.getElem?_set_self hlt] at hq
        obtain ⟨rfl, rfl⟩ := Proc.mk.inj (Option.some.inj hq)
        exact .killed rfl hp
      · rw [List.getElem?_set_ne hpid] at hq
        exact .other hq
    · simp at hs
  | tick n =>
    obtain rfl := Option.some.inj hs
    exact .other hq

theorem step_kill {s s' : State M} {pid : ℕ} (hs : M.step s (.kill pid) = some s') :
    ∃ x, s'.procs[pid]? = some ⟨x, .killed⟩ := by
  simp only [step] at hs
  split at hs
  · rename_i p hp
    split_ifs at hs
    obtain rfl := Option.some.inj hs
    exact ⟨p.origin, List.getElem?_set_self (List.getElem?_eq_some_iff.mp hp).1⟩
  · simp at hs

theorem length_procs {s s' : State M} {a : Action Start Pick} (hs : M.step s a = some s') :
    s'.procs.length = match a with | .start _ => s.procs.length + 1 | _ => s.procs.length := by
  cases a with
  | start x =>
    simp only [step] at hs
    split at hs
    · obtain rfl := Option.some.inj hs
      simp
    · simp at hs
  | step pid pick =>
    simp only [step] at hs
    split at hs
    · split at hs
      · obtain rfl := Option.some.inj hs
        simp
      · simp at hs
    · simp at hs
  | kill pid =>
    simp only [step] at hs
    split at hs
    · split_ifs at hs
      obtain rfl := Option.some.inj hs
      simp
    · simp at hs
  | tick n =>
    obtain rfl := Option.some.inj hs
    rfl

theorem clock_le {s s' : State M} {a : Action Start Pick} (hs : M.step s a = some s') :
    s.clock ≤ s'.clock := by
  cases a with
  | start x =>
    simp only [step] at hs
    split at hs
    · obtain rfl := Option.some.inj hs
      exact Nat.le_refl _
    · simp at hs
  | step pid pick =>
    simp only [step] at hs
    split at hs
    · split at hs
      · obtain rfl := Option.some.inj hs
        exact Nat.le_refl _
      · simp at hs
    · simp at hs
  | kill pid =>
    simp only [step] at hs
    split at hs
    · split_ifs at hs
      obtain rfl := Option.some.inj hs
      exact Nat.le_refl _
    · simp at hs
  | tick n =>
    obtain rfl := Option.some.inj hs
    exact Nat.le_add_right _ _

theorem length_procs_le {s s' : State M} {a : Action Start Pick} (hs : M.step s a = some s') :
    s.procs.length ≤ s'.procs.length := by
  rw [length_procs hs]
  split <;> omega

theorem step_other {s s' : State M} {pid : ℕ} {pick : Pick}
    (hs : M.step s (.step pid pick) = some s')
    {q : ℕ} (hq : q ≠ pid) : s'.procs[q]? = s.procs[q]? := by
  simp only [step] at hs
  split at hs
  · split at hs
    · obtain rfl := Option.some.inj hs
      exact List.getElem?_set_ne (Ne.symm hq)
    · simp at hs
  · simp at hs

/-- **What the own steps of a process keep** stays with it. -/
theorem ReachableBy.stays {T : Status Write Lock Stmt Block Ext ε Ans SRes BRes ERes → Prop}
    (hown : ∀ {s pid pick x st db w st'}, T st →
      advance M s pid pick x st = some (db, w, st') → T st')
    (hkilled : T .killed) {C : State M → Action Start Pick → Prop} {s s' : State M}
    (h : ReachableBy M C s s') {q : ℕ} {x : Start}
    {st : Status Write Lock Stmt Block Ext ε Ans SRes BRes ERes}
    (hq : s.procs[q]? = some ⟨x, st⟩) (hst : T st) :
    ∃ st', s'.procs[q]? = some ⟨x, st'⟩ ∧ T st' := by
  induction h with
  | refl => exact ⟨st, hq, hst⟩
  | @step s₁ s₂ a _ _ hs ih =>
    obtain ⟨st₁, hq₁, hst₁⟩ := ih
    have hlt := Nat.lt_of_lt_of_le (List.getElem?_eq_some_iff.mp hq₁).1 (length_procs_le hs)
    obtain ⟨⟨y, st₂⟩, hq₂⟩ : ∃ p, s₂.procs[q]? = some p := ⟨_, List.getElem?_eq_getElem hlt⟩
    cases step_process hs hq₂ with
    | own _ hp hadv =>
      obtain ⟨rfl, rfl⟩ := Proc.mk.inj (Option.some.inj (hq₁.symm.trans hp))
      exact ⟨st₂, hq₂, hown hst₁ hadv⟩
    | other hp =>
      obtain ⟨rfl, rfl⟩ := Proc.mk.inj (Option.some.inj (hq₁.symm.trans hp))
      exact ⟨st₁, hq₂, hst₁⟩
    | killed _ hp =>
      obtain ⟨rfl, rfl⟩ := Proc.mk.inj (Option.some.inj (hq₁.symm.trans hp))
      exact ⟨.killed, hq₂, hkilled⟩
    | started _ hp => simp [hq₁] at hp

/-- A property of a process, given what it was started as, the store and its status: the process
itself keeps it, and nothing that happens to the store breaks it. -/
structure Local (M : Machine Db Write Lock Stmt Pick Block Ext ε Ans Start World SRes BRes ERes)
    (G : Rely Db Lock) (K : Contract Db Write Block ε BRes)
    (I : Start → Db → Status Write Lock Stmt Block Ext ε Ans SRes BRes ERes → Prop) : Prop where
  later : ∀ {x D D' st}, G.Le D D' → I x D st → I x D' st
  own : ∀ {s pid pick x st db w st'}, Good M G K s → s.procs[pid]? = some ⟨x, st⟩ → I x s.db st →
    G.Le s.db db → advance M s pid pick x st = some (db, w, st') → I x db st'
  killed : ∀ {x D st}, I x D st → I x D .killed

theorem ReachableBy.trans {C : State M → Action Start Pick → Prop} {s₀ s s' : State M}
    (h : ReachableBy M C s₀ s) (h' : ReachableBy M C s s') : ReachableBy M C s₀ s' := by
  induction h' with
  | refl => exact h
  | step _ hc hs ih => exact .step ih hc hs

theorem ReachableBy.local (H : M.Fulfils G K)
    {I : Start → Db → Status Write Lock Stmt Block Ext ε Ans SRes BRes ERes → Prop}
    (hI : Local M G K I) {C : State M → Action Start Pick → Prop} {s₀ s : State M}
    (h₀ : Good M G K s₀) (h : ReachableBy M C s₀ s) {q : ℕ}
    (hfirst : ∀ x st, s₀.procs[q]? = some ⟨x, st⟩ → I x s₀.db st)
    (hstart : s₀.procs[q]? = none → ∀ w x p D, G.Le s₀.db D → M.start w x = some p →
      I x D (.run p)) :
    ∀ x st, s.procs[q]? = some ⟨x, st⟩ → I x s.db st := by
  have hkeep : (∀ x st, s.procs[q]? = some ⟨x, st⟩ → I x s.db st) ∧ G.Le s₀.db s.db ∧
      (s.procs[q]? = none → s₀.procs[q]? = none) := by
    induction h with
    | refl => exact ⟨hfirst, H.rely.le_refl _, id⟩
    | @step s s' a hr hc hs ih =>
      obtain ⟨hold, hle₀, hnone⟩ := ih
      have hg := hr.good H h₀
      have hle := step_le H hg hs
      refine ⟨fun x st hq => ?_, H.rely.le_trans hle₀ hle, fun hq => hnone ?_⟩
      · cases step_process hs hq with
        | own ha hp hadv => exact hI.own hg hp (hold _ _ hp) hle hadv
        | other hp => exact hI.later hle (hold _ _ hp)
        | killed ha hp => exact hI.killed (hI.later hle (hold _ _ hp))
        | started ha hp hp' => exact hstart (hnone hp) _ _ _ _ (H.rely.le_trans hle₀ hle) hp'
      · have hlen := length_procs_le hs
        have hq := List.getElem?_eq_none_iff.mp hq
        exact List.getElem?_eq_none (Nat.le_trans hlen hq)
  exact hkeep.1

end Machine

end Payflow.Lib
