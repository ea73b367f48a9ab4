import Payflow.Lib.Store

/-! # Processes over a store

A machine runs any number of processes over one store. A process is a program whose operations are
whole transactions of the store and external actions; while a transaction is open, its statements
are run one at a time. Processes are started, take steps in any order, and may be killed at any
point, which rolls an open transaction back. Everything that is not in the store is the `World`:
external actions change it at once, for good, with an answer the environment picks.

`erase` looks at a state between transactions: an open transaction counts as not begun. `Event` is
what one step does at that level. -/

namespace Payflow.Lib

/-- The operations of a process. -/
inductive Call (Block Ext : Type) where
  | txn (b : Block)
  | ext (e : Ext)

/-- What they answer; a transaction may raise. -/
def Call.Res {Block Ext : Type} (BRes : Block → Type) (ERes : Ext → Type) (ε : Type) :
    Call Block Ext → Type
  | .txn b => Except ε (BRes b)
  | .ext e => ERes e

/-- A machine: a store, the bodies of its transactions, its external actions, the programs of the
processes that can be started, and what the end of a process leaves behind. -/
structure Machine (Db Write Lock Stmt Pick Block Ext ε Ans Start World : Type)
    (SRes : Stmt → Type) (BRes : Block → Type) (ERes : Ext → Type)
    extends Store Db Write Lock Stmt Pick SRes where
  body : (b : Block) → Prog Stmt SRes ε (BRes b)
  ext : ℕ → Pick → World → (e : Ext) → Option (ERes e × World)
  start : World → Start → Option (Prog (Call Block Ext) (Call.Res BRes ERes ε) ε Ans)
  finish : Start → Except ε Ans → World → World

/-- Where a process is: between two of its operations, in a transaction, ended, or killed. -/
inductive Status (Write Lock Stmt Block Ext ε Ans : Type) (SRes : Stmt → Type)
    (BRes : Block → Type) (ERes : Ext → Type) where
  | run (p : Prog (Call Block Ext) (Call.Res BRes ERes ε) ε Ans)
  | inTxn (b : Block) (t : Txn Write Lock Stmt SRes ε (BRes b))
      (k : Except ε (BRes b) → Prog (Call Block Ext) (Call.Res BRes ERes ε) ε Ans)
  | done (out : Except ε Ans)
  | killed

/-- What can happen in one step. -/
inductive Action (Start Pick : Type) where
  | start (x : Start)
  | step (pid : ℕ) (pick : Pick)
  | kill (pid : ℕ)
  | tick (n : ℕ)

/-- What a step does to a state seen between transactions. -/
inductive Event (Block Ext Start : Type) where
  | start (x : Start)
  | commit (pid : ℕ) (b : Block)
  | rollback (pid : ℕ) (b : Block)
  | ext (pid : ℕ) (e : Ext)
  | finish (pid : ℕ)
  | kill (pid : ℕ)
  | tick

variable {Db Write Lock Stmt Pick Block Ext ε Ans Start World : Type}
  {SRes : Stmt → Type} {BRes : Block → Type} {ERes : Ext → Type}

namespace Status

/-- The locks a process holds. -/
def locks : Status Write Lock Stmt Block Ext ε Ans SRes BRes ERes → List Lock
  | inTxn _ t _ => t.locks
  | _ => []

/-- Has the process neither ended nor been killed? -/
def live : Status Write Lock Stmt Block Ext ε Ans SRes BRes ERes → Bool
  | run _ | inTxn _ _ _ => true
  | _ => false

/-- The process between transactions: an open one has not begun. -/
def erase : Status Write Lock Stmt Block Ext ε Ans SRes BRes ERes →
    Status Write Lock Stmt Block Ext ε Ans SRes BRes ERes
  | inTxn b _ k => run (.op (.txn b) k)
  | st => st

@[simp] theorem erase_live (st : Status Write Lock Stmt Block Ext ε Ans SRes BRes ERes) :
    st.erase.live = st.live := by cases st <;> rfl

end Status

namespace Machine

/-- A process: what it was started as, and where it is. -/
structure Proc (M : Machine Db Write Lock Stmt Pick Block Ext ε Ans Start World SRes BRes ERes) where
  origin : Start
  status : Status Write Lock Stmt Block Ext ε Ans SRes BRes ERes

/-- The committed store, the rest of the world, the time, and the processes by number. -/
structure State (M : Machine Db Write Lock Stmt Pick Block Ext ε Ans Start World SRes BRes ERes)
    where
  db : Db
  world : World
  clock : ℕ
  procs : List (Proc M)

variable (M : Machine Db Write Lock Stmt Pick Block Ext ε Ans Start World SRes BRes ERes)

/-- The locks held by all processes but `pid`. -/
def othersLocks (s : State M) (pid : ℕ) : List Lock :=
  (s.procs.eraseIdx pid).flatMap fun p => p.status.locks

/-- The next step of a process: the committed store, the world and the status after it; `none` while
it waits for a lock, or where the environment's choice does not fit. -/
def advance [DecidableEq Lock] (s : State M) (pid : ℕ) (pick : Pick) (x : Start) :
    Status Write Lock Stmt Block Ext ε Ans SRes BRes ERes →
      Option (Db × World × Status Write Lock Stmt Block Ext ε Ans SRes BRes ERes)
  | .run (.pure a) => some (s.db, M.finish x (.ok a) s.world, .done (.ok a))
  | .run (.raise e) => some (s.db, M.finish x (.error e) s.world, .done (.error e))
  | .run (.op (.txn b) k) => some (s.db, s.world, .inTxn b ⟨M.body b, [], [], s.clock⟩ k)
  | .run (.op (.ext e) k) =>
    match M.ext pid pick s.world e with
    | some (r, w) => some (s.db, w, .run (k r))
    | none => none
  | .inTxn b ⟨.pure a, ws, _, _⟩ k =>
    some (M.applyAll s.db ws, s.world, .run (k (.ok a : Except ε (BRes b))))
  | .inTxn b ⟨.raise e, _, _, _⟩ k => some (s.db, s.world, .run (k (.error e : Except ε (BRes b))))
  | .inTxn b ⟨.op st kk, ws, ls, now⟩ k =>
    let view := M.applyAll s.db ws
    let need := M.locks ⟨now, pick⟩ view st
    if ∀ l ∈ need, l ∉ othersLocks M s pid then
      match M.exec ⟨now, pick⟩ view st with
      | some (r, ws') => some (s.db, s.world, .inTxn b ⟨kk r, ws ++ ws', ls ++ need, now⟩ k)
      | none => none
    else none
  | .done _ => none
  | .killed => none

/-- One step of the machine. -/
def step [DecidableEq Lock] (s : State M) : Action Start Pick → Option (State M)
  | .start x =>
    match M.start s.world x with
    | some p => some { s with procs := s.procs ++ [⟨x, .run p⟩] }
    | none => none
  | .step pid pick =>
    match s.procs[pid]? with
    | some p =>
      match advance M s pid pick p.origin p.status with
      | some (db, world, st) =>
        some { s with db := db, world := world, procs := s.procs.set pid ⟨p.origin, st⟩ }
      | none => none
    | none => none
  | .kill pid =>
    match s.procs[pid]? with
    | some p =>
      if p.status.live then some { s with procs := s.procs.set pid ⟨p.origin, .killed⟩ } else none
    | none => none
  | .tick n => some { s with clock := s.clock + n }

/-- The event of a step; opening a transaction and its statements have none. -/
def event (s : State M) : Action Start Pick → Option (Event Block Ext Start)
  | .start x => some (.start x)
  | .step pid _ =>
    match s.procs[pid]? with
    | some ⟨_, .run (.pure _)⟩ => some (.finish pid)
    | some ⟨_, .run (.raise _)⟩ => some (.finish pid)
    | some ⟨_, .run (.op (.ext e) _)⟩ => some (.ext pid e)
    | some ⟨_, .inTxn b ⟨.pure _, _, _, _⟩ _⟩ => some (.commit pid b)
    | some ⟨_, .inTxn b ⟨.raise _, _, _, _⟩ _⟩ => some (.rollback pid b)
    | _ => none
  | .kill pid => some (.kill pid)
  | .tick _ => some .tick

/-- The state between transactions. -/
def erase (s : State M) : State M :=
  { s with procs := s.procs.map fun p => ⟨p.origin, p.status.erase⟩ }

/-- The states reached from `s₀` by steps that all meet `C`, a condition on the state before the
step and on the action. -/
inductive ReachableBy [DecidableEq Lock] (C : State M → Action Start Pick → Prop) (s₀ : State M) :
    State M → Prop
  | refl : ReachableBy C s₀ s₀
  | step {s s' : State M} {a : Action Start Pick} :
      ReachableBy C s₀ s → C s a → M.step s a = some s' → ReachableBy C s₀ s'

/-- The states reached from `s₀`. -/
abbrev Reachable [DecidableEq Lock] (s₀ s : State M) : Prop := ReachableBy M (fun _ _ => True) s₀ s

/-- Run a list of actions that all pass a check. -/
def runWhen [DecidableEq Lock] (c : State M → Action Start Pick → Bool) (s : State M) :
    List (Action Start Pick) → Option (State M)
  | [] => some s
  | a :: as =>
    if c s a then
      match M.step s a with
      | some s' => runWhen c s' as
      | none => none
    else none

/-- Run a list of actions. -/
def run [DecidableEq Lock] (s : State M) (as : List (Action Start Pick)) : Option (State M) :=
  runWhen M (fun _ _ => true) s as

end Machine

end Payflow.Lib
