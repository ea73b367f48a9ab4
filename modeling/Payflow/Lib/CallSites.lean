import Payflow.Lib.Leaves
import Payflow.Lib.Protocol

/-! # What holds where a transaction is called

A program may call a transaction only where something holds of the store (`Calls`), while the store
moves on between any two of its steps; what is known when it is called, and of the time at which it
begins, is known as long as it is open (`ReachableBy.opened`). -/

namespace Payflow.Lib

variable {Db Write Lock Stmt Pick Block Ext ε Ans Start World : Type}
  {SRes : Stmt → Type} {BRes : Block → Type} {ERes : Ext → Type} {α β : Type}

namespace Machine

section program

variable (M : Machine Db Write Lock Stmt Pick Block Ext ε Ans Start World SRes BRes ERes)
  (G : Rely Db Lock) (K : Contract Db Write Block ε BRes) (R : Db → Db → Prop)
  (A : Block → Db → Prop)

/-- The program, run from the store `D` on, calls its transactions only where `A` holds. -/
def Calls : Prog (Call Block Ext) (Call.Res BRes ERes ε) ε α → Db → Prop
  | .pure _, _ | .raise _, _ => True
  | .op (.txn b) k, D => A b D ∧
      (∀ D' now ws r, R D D' → G.Inv D' → K.Pre b D' → K.Post b now D' ws r →
        Calls (k (.ok r : Except ε (BRes b))) (M.applyAll D' ws)) ∧
      ∀ e, Calls (k (.error e : Except ε (BRes b))) D
  | .op (.ext _) k, D => ∀ r, Calls (k r) D

/-- What is known of a process. -/
def StatusCalls (D : Db) : Status Write Lock Stmt Block Ext ε Ans SRes BRes ERes → Prop
  | .run p => Calls M G K R A p D
  | .inTxn b _ k =>
    (∀ D' now ws r, R D D' → G.Inv D' → K.Pre b D' → K.Post b now D' ws r →
      Calls M G K R A (k (.ok r : Except ε (BRes b))) (M.applyAll D' ws)) ∧
    ∀ e, Calls M G K R A (k (.error e : Except ε (BRes b))) D
  | _ => True

end program

variable {M : Machine Db Write Lock Stmt Pick Block Ext ε Ans Start World SRes BRes ERes}
  {G : Rely Db Lock} {K : Contract Db Write Block ε BRes} {R : Db → Db → Prop}
  {A : Block → Db → Prop}

/-! ### The rules -/

section rules

variable {D D' : Db}

theorem Calls.mono (hR : Moves M G K Terms.any R) (hA : ∀ b D D', R D D' → A b D → A b D') :
    ∀ {p : Prog (Call Block Ext) (Call.Res BRes ERes ε) ε α} {D D' : Db}, Calls M G K R A p D →
      R D D' → Calls M G K R A p D'
  | .pure _, _, _, _, _ | .raise _, _, _, _, _ => trivial
  | .op (.txn b) _, D, D', h, hD => ⟨hA b D D' hD h.1,
      fun D'' now ws r hD' => h.2.1 D'' now ws r (hR.trans hD hD'),
      fun e => Calls.mono hR hA (h.2.2 e) hD⟩
  | .op (.ext _) _, _, _, h, hD => fun r => Calls.mono hR hA (h r) hD

theorem Calls.bind (hR : Moves M G K Terms.any R)
    {f : α → Prog (Call Block Ext) (Call.Res BRes ERes ε) ε β} :
    ∀ {p : Prog (Call Block Ext) (Call.Res BRes ERes ε) ε α} {D : Db}, Calls M G K R A p D →
      (∀ a D', R D D' → Calls M G K R A (f a) D') → Calls M G K R A (p.bind f) D
  | .pure a, D, _, hf => hf a D (hR.refl D)
  | .raise _, _, _, _ => trivial
  | .op (.txn _) _, _, h, hf => ⟨h.1, fun D' now ws r hD hi hpre hpost =>
      Calls.bind hR (h.2.1 D' now ws r hD hi hpre hpost) fun a D'' hD' =>
        hf a D'' (hR.trans (hR.trans hD (hR.commit hi hpre hpost trivial)) hD'),
      fun e => Calls.bind hR (h.2.2 e) hf⟩
  | .op (.ext _) _, _, h, hf => fun r => Calls.bind hR (h r) hf

theorem Calls.handle (hR : Moves M G K Terms.any R)
    {f : ε → Prog (Call Block Ext) (Call.Res BRes ERes ε) ε α} :
    ∀ {p : Prog (Call Block Ext) (Call.Res BRes ERes ε) ε α} {D : Db}, Calls M G K R A p D →
      (∀ e D', R D D' → Calls M G K R A (f e) D') → Calls M G K R A (p.handle f) D
  | .pure _, _, _, _ => trivial
  | .raise e, D, _, hf => hf e D (hR.refl D)
  | .op (.txn _) _, _, h, hf => ⟨h.1, fun D' now ws r hD hi hpre hpost =>
      Calls.handle hR (h.2.1 D' now ws r hD hi hpre hpost) fun e D'' hD' =>
        hf e D'' (hR.trans (hR.trans hD (hR.commit hi hpre hpost trivial)) hD'),
      fun e => Calls.handle hR (h.2.2 e) hf⟩
  | .op (.ext _) _, _, h, hf => fun r => Calls.handle hR (h r) hf

theorem Calls.ite {c : Prop} [Decidable c]
    {p q : Prog (Call Block Ext) (Call.Res BRes ERes ε) ε α} (hp : c → Calls M G K R A p D)
    (hq : ¬ c → Calls M G K R A q D) : Calls M G K R A (if c then p else q) D := by
  split_ifs with hc
  · exact hp hc
  · exact hq hc

theorem Calls.ofExcept {x : Except ε β}
    {k : β → Prog (Call Block Ext) (Call.Res BRes ERes ε) ε α}
    (h : ∀ a, Calls M G K R A (k a) D) : Calls M G K R A ((Prog.ofExcept x).bind k) D := by
  cases x with
  | error e => trivial
  | ok a => exact h a

theorem Calls.of_uses {S : Call Block Ext → Prop} (hS : ∀ b, S (.txn b) → ∀ D, A b D) :
    ∀ {p : Prog (Call Block Ext) (Call.Res BRes ERes ε) ε α} {D : Db}, p.Uses S →
      Calls M G K R A p D
  | .pure _, _, _ | .raise _, _, _ => trivial
  | .op (.txn b) _, D, h => ⟨hS b h.1 D, fun _ _ _ r _ _ _ _ => Calls.of_uses hS (h.2 (.ok r)),
      fun e => Calls.of_uses hS (h.2 (.error e))⟩
  | .op (.ext _) _, _, h => fun r => Calls.of_uses hS (h.2 r)

theorem StatusCalls.mono (hR : Moves M G K Terms.any R) (hA : ∀ b D D', R D D' → A b D → A b D')
    {st : Status Write Lock Stmt Block Ext ε Ans SRes BRes ERes} (h : StatusCalls M G K R A D st)
    (hD : R D D') : StatusCalls M G K R A D' st := by
  cases st with
  | run p => exact Calls.mono hR hA h hD
  | inTxn b t k => exact ⟨fun D'' now ws r hD' => h.1 D'' now ws r (hR.trans hD hD'),
      fun e => Calls.mono hR hA (h.2 e) hD⟩
  | _ => trivial

end rules

/-! ### The runs -/

variable [DecidableEq Lock]

theorem StatusCalls.advance {s : State M} {pid : ℕ} {pick : Pick} {x : Start}
    {st st' : Status Write Lock Stmt Block Ext ε Ans SRes BRes ERes} {db : Db} {w : World}
    (h : Good M G K s) (hR : Moves M G K Terms.any R) (hp : s.procs[pid]? = some ⟨x, st⟩)
    (hst : StatusCalls M G K R A s.db st) (hadv : advance M s pid pick x st = some (db, w, st')) :
    StatusCalls M G K R A db st' := by
  have hok : StatusOk M G K s.db s.clock st := h.status _ (List.mem_of_getElem? hp)
  cases st with
  | run p =>
    cases p with
    | pure a | raise e =>
      simp only [Machine.advance, Option.some.injEq, Prod.mk.injEq] at hadv
      obtain ⟨-, -, rfl⟩ := hadv
      trivial
    | op o k =>
      cases o with
      | txn b =>
        simp only [Machine.advance, Option.some.injEq, Prod.mk.injEq] at hadv
        obtain ⟨rfl, -, rfl⟩ := hadv
        exact hst.2
      | ext e =>
        simp only [Machine.advance] at hadv
        split at hadv
        · simp only [Option.some.injEq, Prod.mk.injEq] at hadv
          obtain ⟨rfl, -, rfl⟩ := hadv
          exact hst _
        · simp at hadv
  | inTxn b t k =>
    obtain ⟨rest, ws, ls, now⟩ := t
    cases rest with
    | pure r =>
      simp only [Machine.advance, Option.some.injEq, Prod.mk.injEq] at hadv
      obtain ⟨rfl, -, rfl⟩ := hadv
      obtain ⟨hpre, hpost, -⟩ := OpenOk.commit hok
      exact hst.1 s.db now ws r (hR.refl _) h.inv hpre hpost
    | raise e =>
      simp only [Machine.advance, Option.some.injEq, Prod.mk.injEq] at hadv
      obtain ⟨rfl, -, rfl⟩ := hadv
      exact hst.2 e
    | op o kk =>
      obtain ⟨r, ws', -, rfl, rfl⟩ := advance_stmt hadv
      exact hst
  | done out => simp [Machine.advance] at hadv
  | killed => simp [Machine.advance] at hadv

/-- **The processes call their transactions where they may**, if they do so from their start on. -/
theorem ReachableBy.calls (H : M.Fulfils G K) (hR : Moves M G K Terms.any R)
    (hA : ∀ b D D', R D D' → A b D → A b D') {s₀ s : State M} (h₀ : Good M G K s₀)
    (hprocs : s₀.procs = [])
    (hstart : ∀ {s x p}, Reachable M s₀ s → M.start s.world x = some p → Calls M G K R A p s.db)
    (h : Reachable M s₀ s) : ∀ {pid : ℕ} {x st}, s.procs[pid]? = some ⟨x, st⟩ →
      StatusCalls M G K R A s.db st := by
  induction h with
  | refl => simp [hprocs]
  | @step s s' a hr _ hs ih =>
    intro pid x st hp
    have hgood := hr.good H h₀
    have hD := step_moves hR hgood (onTerms_any s a) hs
    cases step_process hs hp with
    | own ha hq hadv => exact (ih hq).advance hgood hR hq hadv
    | other hq => exact (ih hq).mono hR hA hD
    | killed _ hq => trivial
    | started _ _ hstart' => exact Calls.mono hR hA (hstart hr hstart') hD

/-- **As long as a transaction is open**, what follows from where and when it has begun. -/
theorem ReachableBy.opened (H : M.Fulfils G K) (hR : Moves M G K Terms.any R)
    {I : Block → ℕ → Db → Prop} (hI : ∀ b now D D', R D D' → I b now D → I b now D')
    {s₀ s : State M} (h₀ : Good M G K s₀) (hprocs : s₀.procs = [])
    (hbegin : ∀ {s : State M} {pid : ℕ} {x : Start} {b : Block}
      {k : Except ε (BRes b) → Prog (Call Block Ext) (Call.Res BRes ERes ε) ε Ans},
      Reachable M s₀ s → s.procs[pid]? = some ⟨x, .run (.op (.txn b) k)⟩ → I b s.clock s.db)
    (h : Reachable M s₀ s) : ∀ {pid : ℕ} {x : Start} {b : Block}
      {t : Txn Write Lock Stmt SRes ε (BRes b)}
      {k : Except ε (BRes b) → Prog (Call Block Ext) (Call.Res BRes ERes ε) ε Ans},
      s.procs[pid]? = some ⟨x, .inTxn b t k⟩ → I b t.now s.db := by
  induction h with
  | refl => simp [hprocs]
  | @step s s' a hr _ hs ih =>
    intro pid x b t k hp
    have hgood := hr.good H h₀
    have hD := step_moves hR hgood (onTerms_any s a) hs
    cases step_process hs hp with
    | @own st _ pick w ha hq hadv =>
      cases st with
      | run p =>
        cases p with
        | pure a | raise e => simp [Machine.advance] at hadv
        | op o k' =>
          cases o with
          | txn b' =>
            simp only [Machine.advance, Option.some.injEq, Prod.mk.injEq] at hadv
            obtain ⟨-, -, hst⟩ := hadv
            cases hst
            exact hI _ _ _ _ hD (hbegin hr hq)
          | ext e =>
            simp only [Machine.advance] at hadv
            split at hadv <;> simp at hadv
      | inTxn b' t' k' =>
        obtain ⟨rest, ws, ls, now⟩ := t'
        cases rest with
        | pure r | raise e => simp [Machine.advance] at hadv
        | op o kk =>
          obtain ⟨r, ws', -, -, hst⟩ := advance_stmt hadv
          cases hst
          have hopen := ih hq
          exact hI _ now _ _ hD hopen
      | done out => simp [Machine.advance] at hadv
      | killed => simp [Machine.advance] at hadv
    | other hq => exact hI _ _ _ _ hD (ih hq)

end Machine

end Payflow.Lib
