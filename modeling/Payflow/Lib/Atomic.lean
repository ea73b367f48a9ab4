import Payflow.Lib.Machine
import Mathlib.Tactic.Common

/-! # Transactions at their commit

A contract says for each transaction what the store must satisfy when it begins (`Pre`), what it may
commit (`Post`) and with what exception it may roll back (`Fail`). If the bodies meet the contract
while others commit between their statements, and every process calls its transactions only where
`Pre` holds, then a run of the machine, seen between transactions, is a run in which each
transaction happens at one moment, that of its commit (`AStep`). Invariants are proved of such
steps. -/

namespace Payflow.Lib

/-- What the transactions of a machine require and promise. -/
structure Contract (Db Write Block ε : Type) (BRes : Block → Type) where
  Pre : Block → Db → Prop
  Post : (b : Block) → ℕ → Db → List Write → BRes b → Prop
  Fail : Block → Db → ε → Prop

variable {Db Write Lock Stmt Pick Block Ext ε Ans Start World : Type}
  {SRes : Stmt → Type} {BRes : Block → Type} {ERes : Ext → Type}

namespace Machine

variable (M : Machine Db Write Lock Stmt Pick Block Ext ε Ans Start World SRes BRes ERes)
  (G : Rely Db Lock) (K : Contract Db Write Block ε BRes)

/-- From the store `D` on, the process calls every transaction where its requirement holds, if the
transactions keep their promises. -/
def Keeps {α : Type} : Prog (Call Block Ext) (Call.Res BRes ERes ε) ε α → Db → Prop
  | .pure _, _ => True
  | .raise _, _ => True
  | .op (.txn b) k, D => ∀ D', G.Le D D' → G.Inv D' → K.Pre b D' ∧
      (∀ now ws (r : BRes b), K.Post b now D' ws r →
        Keeps (k (.ok r : Except ε (BRes b))) (M.applyAll D' ws)) ∧
      (∀ e, K.Fail b D' e → Keeps (k (.error e : Except ε (BRes b))) D')
  | .op (.ext e) k, D => ∀ r : ERes e, Keeps (k r) D

/-- The contract holds of the machine. -/
structure Fulfils : Prop where
  rely : G.Lawful M.toStore
  keep : ∀ {b now D ws r}, G.Inv D → K.Pre b D → K.Post b now D ws r →
    G.Inv (M.applyAll D ws) ∧ G.Le D (M.applyAll D ws)
  body : ∀ b now D, G.Inv D → K.Pre b D →
    Meets M.toStore G (K.Post b) (K.Fail b) now (M.body b) [] [] D
  start : ∀ {w x p}, M.start w x = some p → ∀ D, G.Inv D → Keeps M G K p D

/-- One step at the level of whole transactions. -/
inductive AStep : State M → Event Block Ext Start → State M → Prop
  | start {s : State M} {x p} : M.start s.world x = some p →
      AStep s (.start x) { s with procs := s.procs ++ [⟨x, .run p⟩] }
  | commit {s : State M} {pid x b k now ws} {r : BRes b} :
      s.procs[pid]? = some ⟨x, .run (.op (.txn b) k)⟩ → now ≤ s.clock → G.Inv s.db →
      K.Pre b s.db → K.Post b now s.db ws r →
      AStep s (.commit pid b) { s with
        db := M.applyAll s.db ws
        procs := s.procs.set pid ⟨x, .run (k (.ok r : Except ε (BRes b)))⟩ }
  | rollback {s : State M} {pid x b k D₀ e} :
      s.procs[pid]? = some ⟨x, .run (.op (.txn b) k)⟩ → G.Le D₀ s.db → G.Inv D₀ →
      K.Pre b D₀ → K.Fail b D₀ e →
      AStep s (.rollback pid b) { s with
        procs := s.procs.set pid ⟨x, .run (k (.error e : Except ε (BRes b)))⟩ }
  | ext {s : State M} {pid pick x e k w} {r : ERes e} :
      s.procs[pid]? = some ⟨x, .run (.op (.ext e) k)⟩ → M.ext pid pick s.world e = some (r, w) →
      AStep s (.ext pid e) { s with world := w, procs := s.procs.set pid ⟨x, .run (k r)⟩ }
  | finishOk {s : State M} {pid x a} : s.procs[pid]? = some ⟨x, .run (.pure a)⟩ →
      AStep s (.finish pid) { s with
        world := M.finish x (.ok a) s.world, procs := s.procs.set pid ⟨x, .done (.ok a)⟩ }
  | finishError {s : State M} {pid x e} : s.procs[pid]? = some ⟨x, .run (.raise e)⟩ →
      AStep s (.finish pid) { s with
        world := M.finish x (.error e) s.world, procs := s.procs.set pid ⟨x, .done (.error e)⟩ }
  | kill {s : State M} {pid x st} : s.procs[pid]? = some ⟨x, st⟩ → st.live = true →
      AStep s (.kill pid) { s with procs := s.procs.set pid ⟨x, .killed⟩ }
  | tick {s : State M} {n} : AStep s .tick { s with clock := s.clock + n }

/-- What is known of an open transaction: it started in the past, it has written within its locks,
and it meets its contract from the store its last statement has seen. -/
structure OpenOk (db : Db) (clock : ℕ) (b : Block) (t : Txn Write Lock Stmt SRes ε (BRes b))
    (k : Except ε (BRes b) → Prog (Call Block Ext) (Call.Res BRes ERes ε) ε Ans) : Prop where
  now_le : t.now ≤ clock
  within : M.Within G t.writes t.locks
  meets : ∃ D₀, G.Inv D₀ ∧ G.Moves t.locks D₀ db ∧ Keeps M G K (.op (.txn b) k) D₀ ∧
    Meets M.toStore G (K.Post b) (K.Fail b) t.now t.rest t.writes t.locks D₀

/-- What is known of a process. -/
def StatusOk (db : Db) (clock : ℕ) :
    Status Write Lock Stmt Block Ext ε Ans SRes BRes ERes → Prop
  | .run p => Keeps M G K p db
  | .inTxn b t k => OpenOk M G K db clock b t k
  | _ => True

/-- No two processes hold the same lock. -/
def LocksDisjoint (procs : List (Proc M)) : Prop :=
  ∀ (i j : ℕ) (p q : Proc M), i ≠ j → procs[i]? = some p → procs[j]? = some q →
    ∀ l ∈ p.status.locks, l ∉ q.status.locks

/-- The invariant of the machine: the committed store is well formed, no two processes hold the same
lock, and every process keeps to the contract. -/
structure Good (s : State M) : Prop where
  inv : G.Inv s.db
  status : ∀ p ∈ s.procs, StatusOk M G K s.db s.clock p.status
  disjoint : LocksDisjoint M s.procs

section

variable {M G K}

theorem mem_othersLocks {s : State M} {pid : ℕ} {l : Lock} :
    l ∈ othersLocks M s pid ↔ ∃ i p, i ≠ pid ∧ s.procs[i]? = some p ∧ l ∈ p.status.locks := by
  simp only [othersLocks, List.mem_flatMap, List.mem_eraseIdx_iff_getElem?]
  constructor
  · rintro ⟨p, ⟨i, hi, hp⟩, hl⟩; exact ⟨i, p, hi, hp, hl⟩
  · rintro ⟨i, p, hi, hp, hl⟩; exact ⟨p, ⟨i, hi, hp⟩, hl⟩

section keeps

variable {α β : Type}

/-- The rule for a transaction: it may be called, and the program goes on with what it promises. -/
theorem Keeps.txn {D : Db} {b : Block}
    {k : Except ε (BRes b) → Prog (Call Block Ext) (Call.Res BRes ERes ε) ε α}
    (hpre : ∀ D', G.Le D D' → G.Inv D' → K.Pre b D')
    (hok : ∀ D' now ws (r : BRes b), G.Le D D' → G.Inv D' → K.Post b now D' ws r →
      Keeps M G K (k (.ok r)) (M.applyAll D' ws))
    (herror : ∀ D' e, G.Le D D' → G.Inv D' → K.Fail b D' e → Keeps M G K (k (.error e)) D') :
    Keeps M G K (.op (.txn b) k) D :=
  fun D' hle hi => ⟨hpre D' hle hi, fun now ws r => hok D' now ws r hle hi,
    fun e => herror D' e hle hi⟩

/-- Run one program after another one that leaves nothing to rely on. -/
theorem Keeps.bind : ∀ {p : Prog (Call Block Ext) (Call.Res BRes ERes ε) ε α}
    {f : α → Prog (Call Block Ext) (Call.Res BRes ERes ε) ε β} {D : Db},
      Keeps M G K p D → (∀ a D, Keeps M G K (f a) D) → Keeps M G K (p.bind f) D
  | .pure a, _, D, _, hf => hf a D
  | .raise _, _, _, _, _ => trivial
  | .op (.txn _) _, _, _, h, hf => fun D' hle hi =>
    have ⟨hpre, hok, herror⟩ := h D' hle hi
    ⟨hpre, fun now ws r hp => (hok now ws r hp).bind hf, fun e he => (herror e he).bind hf⟩
  | .op (.ext _) _, _, _, h, hf => fun r => Keeps.bind (h r) hf

theorem Keeps.handle : ∀ {p : Prog (Call Block Ext) (Call.Res BRes ERes ε) ε α}
    {f : ε → Prog (Call Block Ext) (Call.Res BRes ERes ε) ε α} {D : Db},
      Keeps M G K p D → (∀ e D, Keeps M G K (f e) D) → Keeps M G K (p.handle f) D
  | .pure _, _, _, _, _ => trivial
  | .raise e, _, D, _, hf => hf e D
  | .op (.txn _) _, _, _, h, hf => fun D' hle hi =>
    have ⟨hpre, hok, herror⟩ := h D' hle hi
    ⟨hpre, fun now ws r hp => (hok now ws r hp).handle hf, fun e he => (herror e he).handle hf⟩
  | .op (.ext _) _, _, _, h, hf => fun r => Keeps.handle (h r) hf

theorem Keeps.ite {c : Prop} [Decidable c]
    {p q : Prog (Call Block Ext) (Call.Res BRes ERes ε) ε α} {D : Db}
    (hp : c → Keeps M G K p D) (hq : ¬ c → Keeps M G K q D) :
    Keeps M G K (if c then p else q) D := by
  split_ifs with hc
  · exact hp hc
  · exact hq hc

theorem Keeps.ofExcept {x : Except ε β}
    {k : β → Prog (Call Block Ext) (Call.Res BRes ERes ε) ε α} {D : Db}
    (h : ∀ b, x = .ok b → Keeps M G K (k b) D) :
    Keeps M G K ((Prog.ofExcept x).bind k) D := by
  cases x with
  | error e => trivial
  | ok b => exact h b rfl

end keeps

theorem Keeps.mono (H : M.Fulfils G K) :
    ∀ {p : Prog (Call Block Ext) (Call.Res BRes ERes ε) ε Ans} {D D' : Db},
      Keeps M G K p D → G.Le D D' → Keeps M G K p D'
  | .pure _, _, _, _, _ => trivial
  | .raise _, _, _, _, _ => trivial
  | .op (.txn _) _, _, _, h, hle => fun D'' hle' => h D'' (H.rely.le_trans hle hle')
  | .op (.ext _) _, _, _, h, hle => fun r => Keeps.mono H (h r) hle

/-- Other processes' commits and the passing of time do not disturb a process. -/
theorem StatusOk.move (H : M.Fulfils G K) {db db' : Db} {clock clock' : ℕ}
    {st : Status Write Lock Stmt Block Ext ε Ans SRes BRes ERes} (h : StatusOk M G K db clock st)
    (hm : G.Moves st.locks db db') (hc : clock ≤ clock') : StatusOk M G K db' clock' st := by
  cases st with
  | run p => exact Keeps.mono H h hm.le
  | inTxn b t k =>
    obtain ⟨D₀, hinv, hD, hk, hmeets⟩ := h.meets
    exact ⟨Nat.le_trans h.now_le hc, h.within, D₀, hinv,
      hD.trans H.rely hm (List.Subset.refl _), hk, hmeets⟩
  | done out => trivial
  | killed => trivial

/-- Replacing a process that gives up no foreign lock keeps the locks disjoint. -/
theorem LocksDisjoint.set {s : State M} (hd : LocksDisjoint M s.procs) {pid : ℕ} {p' : Proc M}
    (hnew : ∀ l ∈ p'.status.locks, l ∉ othersLocks M s pid) :
    LocksDisjoint M (s.procs.set pid p') := by
  intro i j p q hij hi hj l hl hl'
  rw [List.getElem?_set] at hi hj
  split_ifs at hi hj with h1 h2 h3 h4
  · exact hij (h1.symm.trans h3)
  · obtain rfl := Option.some.inj hi
    exact hnew l hl (mem_othersLocks.mpr ⟨j, q, fun h => hij (h1 ▸ h.symm), hj, hl'⟩)
  · obtain rfl := Option.some.inj hj
    exact hnew l hl' (mem_othersLocks.mpr ⟨i, p, fun h => hij (h.trans h4), hi, hl⟩)
  · exact hd i j p q hij hi hj l hl hl'

/-- The invariant is kept when one process moves on, within its locks, and the store with it. -/
theorem Good.set (H : M.Fulfils G K) {s : State M} (h : Good M G K s) {pid : ℕ} {x : Start}
    {st st' : Status Write Lock Stmt Block Ext ε Ans SRes BRes ERes}
    (hp : s.procs[pid]? = some ⟨x, st⟩) {db' : Db} {w' : World} (hinv : G.Inv db')
    (hmove : ∀ ls : List Lock, (∀ l ∈ ls, l ∉ st.locks) → G.Moves ls s.db db')
    (hst : StatusOk M G K db' s.clock st') (hl : ∀ l ∈ st'.locks, l ∉ othersLocks M s pid) :
    Good M G K { s with db := db', world := w', procs := s.procs.set pid ⟨x, st'⟩ } := by
  refine ⟨hinv, fun p hmem => ?_, h.disjoint.set hl⟩
  obtain ⟨i, hi⟩ := List.mem_iff_getElem?.mp hmem
  rw [List.getElem?_set] at hi
  split_ifs at hi with h1 h2
  · obtain rfl := Option.some.inj hi
    exact hst
  · have hs := h.status p (List.mem_of_getElem? hi)
    exact hs.move H (hmove _ fun l hl' => h.disjoint i pid p _ (Ne.symm h1) hi hp l hl') (Nat.le_refl _)

theorem not_mem_othersLocks {s : State M} (h : Good M G K s) {pid : ℕ} {p : Proc M}
    (hp : s.procs[pid]? = some p) : ∀ l ∈ p.status.locks, l ∉ othersLocks M s pid := by
  intro l hl hl'
  obtain ⟨i, q, hi, hq, hlq⟩ := mem_othersLocks.mp hl'
  exact h.disjoint pid i p q (Ne.symm hi) hp hq l hl hlq

@[simp] theorem erase_db (s : State M) : (erase M s).db = s.db := rfl

@[simp] theorem erase_world (s : State M) : (erase M s).world = s.world := rfl

@[simp] theorem erase_clock (s : State M) : (erase M s).clock = s.clock := rfl

theorem erase_procs {s : State M} {pid : ℕ} {x : Start}
    {st : Status Write Lock Stmt Block Ext ε Ans SRes BRes ERes}
    (h : s.procs[pid]? = some ⟨x, st⟩) :
    (erase M s).procs[pid]? = some ⟨x, st.erase⟩ := by
  simp [erase, h]

theorem erase_set (s : State M) (db : Db) (w : World) (pid : ℕ) (x : Start)
    (st : Status Write Lock Stmt Block Ext ε Ans SRes BRes ERes) :
    erase M { s with db := db, world := w, procs := s.procs.set pid ⟨x, st⟩ } =
      { erase M s with db := db, world := w, procs := (erase M s).procs.set pid ⟨x, st.erase⟩ } := by
  simp [erase, List.map_set]

/-- A step that only changes what a process does inside its transaction is not seen. -/
theorem erase_set_self {s : State M} {pid : ℕ} {x : Start}
    {st st' : Status Write Lock Stmt Block Ext ε Ans SRes BRes ERes}
    (hp : s.procs[pid]? = some ⟨x, st⟩) (he : st'.erase = st.erase) :
    erase M { s with procs := s.procs.set pid ⟨x, st'⟩ } = erase M s := by
  have h := erase_procs hp
  rw [show ({ s with procs := s.procs.set pid ⟨x, st'⟩ } : State M) =
    { s with db := s.db, world := s.world, procs := s.procs.set pid ⟨x, st'⟩ } from rfl,
    erase_set, he]
  obtain ⟨hlt, hget⟩ := List.getElem?_eq_some_iff.mp h
  rw [← hget, List.set_getElem_self]
  rfl

/-- A commit is a move of the store for whoever holds other locks. -/
theorem commit_moves (H : M.Fulfils G K) {db : Db} {b : Block} {now : ℕ} {ws : List Write}
    {r : BRes b} {ls : List Lock} (hinv : G.Inv db) (hpre : K.Pre b db)
    (hpost : K.Post b now db ws r) (hw : M.Within G ws ls) (ls' : List Lock)
    (hls : ∀ l ∈ ls', l ∉ ls) : G.Moves ls' db (M.applyAll db ws) :=
  have hk := H.keep hinv hpre hpost
  ⟨hk.2, fun l hl => hw.same H.rely (hls l hl) db, hk.1⟩

theorem OpenOk.commit {db : Db} {clock : ℕ} {b : Block}
    {a : BRes b} {ws : List Write} {ls : List Lock} {now : ℕ}
    {k : Except ε (BRes b) → Prog (Call Block Ext) (Call.Res BRes ERes ε) ε Ans}
    (h : OpenOk M G K db clock b ⟨.pure a, ws, ls, now⟩ k) :
    K.Pre b db ∧ K.Post b now db ws a ∧
      Keeps M G K (k (.ok a : Except ε (BRes b))) (M.applyAll db ws) := by
  obtain ⟨D₀, -, hm, hk, hmeets⟩ := h.meets
  have hpost : K.Post b now db ws a := hmeets db hm
  obtain ⟨hpre, hok, -⟩ := hk db hm.le hm.inv
  exact ⟨hpre, hpost, hok now ws a hpost⟩

theorem OpenOk.rollback (H : M.Fulfils G K) {db : Db} {clock : ℕ} {b : Block} {e : ε}
    {ws : List Write} {ls : List Lock} {now : ℕ}
    {k : Except ε (BRes b) → Prog (Call Block Ext) (Call.Res BRes ERes ε) ε Ans}
    (h : OpenOk M G K db clock b ⟨.raise e, ws, ls, now⟩ k) :
    (∃ D₀, G.Le D₀ db ∧ G.Inv D₀ ∧ K.Pre b D₀ ∧ K.Fail b D₀ e) ∧
      Keeps M G K (k (.error e : Except ε (BRes b))) db := by
  obtain ⟨D₀, hinv, hm, hk, hmeets⟩ := h.meets
  obtain ⟨hpre, -, herr⟩ := hk D₀ (H.rely.le_refl D₀) hinv
  exact ⟨⟨D₀, hm.le, hinv, hpre, hmeets⟩, Keeps.mono H (herr e hmeets) hm.le⟩

theorem OpenOk.stmt (H : M.Fulfils G K) {db : Db} {clock : ℕ} {b : Block} {st : Stmt}
    {kk : SRes st → Prog Stmt SRes ε (BRes b)} {ws : List Write} {ls : List Lock} {now : ℕ}
    {k : Except ε (BRes b) → Prog (Call Block Ext) (Call.Res BRes ERes ε) ε Ans} {pick : Pick}
    {r : SRes st} {ws' : List Write} (h : OpenOk M G K db clock b ⟨.op st kk, ws, ls, now⟩ k)
    (hx : M.exec ⟨now, pick⟩ (M.applyAll db ws) st = some (r, ws')) :
    OpenOk M G K db clock b
      ⟨kk r, ws ++ ws', ls ++ M.locks ⟨now, pick⟩ (M.applyAll db ws) st, now⟩ k := by
  obtain ⟨D₀, hinv, hm, hk, hmeets⟩ := h.meets
  have hw : M.Within G ws' (M.locks ⟨now, pick⟩ (M.applyAll db ws) st) :=
    fun w hw l hl D => H.rely.frame hx w hw l hl D
  exact ⟨h.now_le, h.within.append hw, db, hm.inv, .refl H.rely hm.inv, Keeps.mono H hk hm.le,
    hmeets db hm ⟨now, pick⟩ rfl r ws' hx⟩

/-- What a step is, seen between transactions. -/
def Simulates (M : Machine Db Write Lock Stmt Pick Block Ext ε Ans Start World SRes BRes ERes)
    (G : Rely Db Lock) (K : Contract Db Write Block ε BRes) (s : State M) (a : Action Start Pick)
    (s' : State M) : Prop :=
  match event M s a with
  | none => erase M s' = erase M s
  | some ev => AStep M G K (erase M s) ev (erase M s')

theorem Good.init {D : Db} (h : G.Inv D) (w : World) (c : ℕ) : Good M G K ⟨D, w, c, []⟩ :=
  ⟨h, by simp, by simp [LocksDisjoint]⟩

variable [DecidableEq Lock]

/-- **A step of a process** keeps the invariant, and is a step between transactions or none. -/
theorem good_advance (H : M.Fulfils G K) {s : State M} (h : Good M G K s) {pid : ℕ} {pick : Pick}
    {x : Start} {st st' : Status Write Lock Stmt Block Ext ε Ans SRes BRes ERes} {db : Db}
    {w : World} (hp : s.procs[pid]? = some ⟨x, st⟩)
    (hs : advance M s pid pick x st = some (db, w, st')) :
    Good M G K { s with db := db, world := w, procs := s.procs.set pid ⟨x, st'⟩ } ∧
      Simulates M G K s (.step pid pick)
        { s with db := db, world := w, procs := s.procs.set pid ⟨x, st'⟩ } := by
  have hst : StatusOk M G K s.db s.clock st := h.status _ (List.mem_of_getElem? hp)
  have hstay : ∀ ls : List Lock, (∀ l ∈ ls, l ∉ st.locks) → G.Moves ls s.db s.db :=
    fun _ _ => .refl H.rely h.inv
  have he := erase_procs hp
  cases st with
  | run p =>
    cases p with
    | pure a =>
      simp only [advance, Option.some.injEq, Prod.mk.injEq] at hs
      obtain ⟨rfl, rfl, rfl⟩ := hs
      refine ⟨h.set H hp h.inv hstay trivial (by simp [Status.locks]), ?_⟩
      simp only [Simulates, event, hp, erase_set]
      exact .finishOk he
    | raise e =>
      simp only [advance, Option.some.injEq, Prod.mk.injEq] at hs
      obtain ⟨rfl, rfl, rfl⟩ := hs
      refine ⟨h.set H hp h.inv hstay trivial (by simp [Status.locks]), ?_⟩
      simp only [Simulates, event, hp, erase_set]
      exact .finishError he
    | op o k =>
      cases o with
      | txn b =>
        simp only [advance, Option.some.injEq, Prod.mk.injEq] at hs
        obtain ⟨rfl, rfl, rfl⟩ := hs
        have hpre : K.Pre b s.db := (hst s.db (H.rely.le_refl _) h.inv).1
        refine ⟨h.set H hp h.inv hstay ?_ (by simp [Status.locks]), ?_⟩
        · exact ⟨Nat.le_refl _, by simp [Store.Within], s.db, h.inv, .refl H.rely h.inv, hst,
            H.body b s.clock s.db h.inv hpre⟩
        · simp only [Simulates, event, hp]
          exact erase_set_self hp rfl
      | ext e =>
        simp only [advance] at hs
        split at hs
        · rename_i r w₁ hx
          simp only [Option.some.injEq, Prod.mk.injEq] at hs
          obtain ⟨rfl, rfl, rfl⟩ := hs
          refine ⟨h.set H hp h.inv hstay (hst r) (by simp [Status.locks]), ?_⟩
          simp only [Simulates, event, hp, erase_set]
          exact .ext he hx
        · simp at hs
  | inTxn b t k =>
    obtain ⟨rest, ws, ls, now⟩ := t
    have hown := not_mem_othersLocks h hp
    cases rest with
    | pure a =>
      simp only [advance, Option.some.injEq, Prod.mk.injEq] at hs
      obtain ⟨rfl, rfl, rfl⟩ := hs
      obtain ⟨hpre, hpost, hk⟩ := OpenOk.commit hst
      have hmv := fun ls' hls => commit_moves H h.inv hpre hpost hst.within ls' hls
      refine ⟨h.set H hp (hmv [] (by simp)).inv hmv hk (by simp [Status.locks]), ?_⟩
      simp only [Simulates, event, hp, erase_set]
      exact .commit he hst.now_le h.inv hpre hpost
    | raise e =>
      simp only [advance, Option.some.injEq, Prod.mk.injEq] at hs
      obtain ⟨rfl, rfl, rfl⟩ := hs
      obtain ⟨⟨D₀, hle, hinv, hpre, hfail⟩, hk⟩ := OpenOk.rollback H hst
      refine ⟨h.set H hp h.inv hstay hk (by simp [Status.locks]), ?_⟩
      simp only [Simulates, event, hp, erase_set]
      exact .rollback he hle hinv hpre hfail
    | op stm kk =>
      simp only [advance] at hs
      split_ifs at hs with hfree
      split at hs
      · rename_i r ws' hx
        simp only [Option.some.injEq, Prod.mk.injEq] at hs
        obtain ⟨rfl, rfl, rfl⟩ := hs
        refine ⟨h.set H hp h.inv hstay (OpenOk.stmt H hst hx) ?_, ?_⟩
        · intro l hl
          rcases List.mem_append.mp hl with hl | hl
          · exact hown l hl
          · exact hfree l hl
        · simp only [Simulates, event, hp]
          exact erase_set_self hp rfl
      · simp at hs
  | done out => simp [advance] at hs
  | killed => simp [advance] at hs

/-- **A step of the machine** keeps the invariant, and is a step between transactions or none. -/
theorem good_step (H : M.Fulfils G K) {s s' : State M} (h : Good M G K s) {a : Action Start Pick}
    (hs : M.step s a = some s') : Good M G K s' ∧ Simulates M G K s a s' := by
  cases a with
  | start x =>
    simp only [step] at hs
    split at hs
    · rename_i p hstart
      obtain rfl := Option.some.inj hs
      refine ⟨⟨h.inv, fun q hq => ?_, fun i j q r hij hi hj l hl => ?_⟩, ?_⟩
      · rcases List.mem_append.mp hq with hq | hq
        · exact h.status q hq
        · obtain rfl := List.mem_singleton.mp hq
          exact H.start hstart s.db h.inv
      · -- the new process holds no lock
        have hnew : ∀ {i : ℕ} {q : Proc M},
            (s.procs ++ [⟨x, .run p⟩])[i]? = some q → s.procs[i]? = some q ∨
              q.status.locks = [] := by
          intro i q hi
          rw [List.getElem?_append] at hi
          split_ifs at hi with hlt
          · exact Or.inl hi
          · obtain rfl := List.mem_singleton.mp (List.mem_of_getElem? hi)
            exact Or.inr rfl
        rcases hnew hi with hi | hi
        · rcases hnew hj with hj | hj
          · exact h.disjoint i j q r hij hi hj l hl
          · simp [hj]
        · simp [hi] at hl
      · simp only [Simulates, event, erase, List.map_append, List.map_cons, List.map_nil]
        exact .start hstart
    · simp at hs
  | step pid pick =>
    simp only [step] at hs
    split at hs
    · rename_i p hp
      split at hs
      · rename_i db w st' hadv
        obtain rfl := Option.some.inj hs
        exact good_advance H h hp hadv
      · simp at hs
    · simp at hs
  | kill pid =>
    simp only [step] at hs
    split at hs
    · rename_i p hp
      split_ifs at hs with hlive
      obtain rfl := Option.some.inj hs
      refine ⟨h.set H hp h.inv (fun _ _ => .refl H.rely h.inv) trivial (by simp [Status.locks]), ?_⟩
      simp only [Simulates, event]
      have := erase_set s s.db s.world pid p.origin
        (.killed : Status Write Lock Stmt Block Ext ε Ans SRes BRes ERes)
      exact this ▸ .kill (erase_procs hp) (by simpa using hlive)
    · simp at hs
  | tick n =>
    obtain rfl := Option.some.inj hs
    refine ⟨⟨h.inv, fun p hp => ?_, h.disjoint⟩, .tick⟩
    exact (h.status p hp).move H (.refl H.rely h.inv) (Nat.le_add_right _ _)

theorem ReachableBy.good (H : M.Fulfils G K) {C : State M → Action Start Pick → Prop}
    {s₀ s : State M} (h₀ : Good M G K s₀) (h : ReachableBy M C s₀ s) : Good M G K s := by
  induction h with
  | refl => exact h₀
  | step _ _ hs ih => exact (good_step H ih hs).1

theorem ReachableBy.imp {C C' : State M → Action Start Pick → Prop} {s₀ s : State M}
    (h : ReachableBy M C s₀ s) (hC : ∀ s a, C s a → C' s a) : ReachableBy M C' s₀ s := by
  induction h with
  | refl => exact .refl
  | step _ hc hs ih => exact .step ih (hC _ _ hc) hs

theorem ReachableBy.runWhen {C : State M → Action Start Pick → Prop}
    {c : State M → Action Start Pick → Bool} (hc : ∀ s a, c s a = true → C s a) {s₀ : State M} :
    ∀ {as : List (Action Start Pick)} {s s' : State M}, ReachableBy M C s₀ s →
      Machine.runWhen M c s as = some s' → ReachableBy M C s₀ s'
  | [], s, s', h, hr => Option.some.inj hr ▸ h
  | a :: as, s, s', h, hr => by
    unfold Machine.runWhen at hr
    split_ifs at hr with hca
    split at hr
    · rename_i s₁ hs
      exact ReachableBy.runWhen hc (.step h (hc s a hca) hs) hr
    · simp at hr

theorem ReachableBy.run {s₀ s : State M} {as : List (Action Start Pick)}
    (h : M.run s₀ as = some s) : ReachableBy M (fun _ _ => True) s₀ s :=
  ReachableBy.runWhen (fun _ _ _ => trivial) .refl h

/-- The condition that a step meets, where it is about the events between transactions. -/
def OnEvents (M : Machine Db Write Lock Stmt Pick Block Ext ε Ans Start World SRes BRes ERes)
    (C : State M → Event Block Ext Start → Prop) (s : State M) (a : Action Start Pick) : Prop :=
  ∀ ev, event M s a = some ev → C (erase M s) ev

/-- **Invariants are proved between transactions.** What holds at the start and is kept by every
step between transactions that meets the condition holds in every state that is reached so. -/
theorem ReachableBy.invariant (H : M.Fulfils G K) {C : State M → Event Block Ext Start → Prop}
    {P : State M → Prop} {s₀ s : State M} (h₀ : Good M G K s₀) (hP : P (erase M s₀))
    (hstep : ∀ {s ev s'}, P s → C s ev → AStep M G K s ev s' → P s')
    (h : ReachableBy M (OnEvents M C) s₀ s) : P (erase M s) := by
  induction h with
  | refl => exact hP
  | step hr hc hs ih =>
    have hsim := (good_step H (hr.good H h₀) hs).2
    simp only [Simulates] at hsim
    split at hsim
    · rw [hsim]; exact ih
    · rename_i ev hev
      exact hstep ih (hc ev hev) hsim

end

end Machine

end Payflow.Lib
