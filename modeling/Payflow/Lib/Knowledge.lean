import Payflow.Lib.Local
import Payflow.Lib.Protocol

/-! # What processes know

The processes of a machine may be part of something larger, of which each of them sees little: the
answers to its external actions, and what its statements read. A `Logic` has the views of the whole
and how they grow. A process is safe (`Safe`) if, at whatever later view it gets on, it calls its
transactions and external actions only where that is right, given that their answers are. The
transactions are followed statement by statement, each on the store of its time. -/

namespace Payflow.Lib

variable {Db Write Lock Stmt Pick Block Ext ε Ans Start World View : Type}
  {SRes : Stmt → Type} {BRes : Block → Type} {ERes : Ext → Type}

/-- Views of the whole: the store in a view, how views grow, what holds of all
of them, where transactions and external actions are called, what external
actions answer and how transactions end. -/
structure Logic (M : Machine Db Write Lock Stmt Pick Block Ext ε Ans Start World SRes BRes ERes)
    (View : Type) where
  db : View → Db
  Le : View → View → Prop
  Inv : View → Prop
  Callable : View → Block → Prop
  Allowed : View → Ext → Prop
  Answers : View → (e : Ext) → ERes e → Prop
  Ends : (b : Block) → Except ε (BRes b) → Prop

namespace Logic

variable {M : Machine Db Write Lock Stmt Pick Block Ext ε Ans Start World SRes BRes ERes}

/-- What is right stays right when the view grows. -/
structure Lawful (L : Logic M View) : Prop where
  refl : ∀ v, L.Le v v
  trans : ∀ {v v' v''}, L.Le v v' → L.Le v' v'' → L.Le v v''
  callable : ∀ {v v' b}, L.Le v v' → L.Callable v b → L.Callable v' b
  allowed : ∀ {v v' e}, L.Le v v' → L.Allowed v e → L.Allowed v' e

variable (L : Logic M View)

/-- The rest of a transaction ends as `Q` says, whatever its statements read. -/
def TxSafe (now : ℕ) {α : Type} (Q : View → Except ε α → Prop) :
    Prog Stmt SRes ε α → List Write → View → Prop
  | .pure a, _, v => Q v (.ok a)
  | .raise e, _, v => Q v (.error e)
  | .op o kk, ws, v => ∀ v', L.Le v v' → L.Inv v' → ∀ pick r ws',
      M.exec ⟨now, pick⟩ (M.applyAll (L.db v') ws) o = some (r, ws') →
        TxSafe now Q (kk r) (ws ++ ws') v'

/-- The program is safe, and ends as `R` says. -/
def Safe {α : Type} (R : View → Except ε α → Prop) :
    Prog (Call Block Ext) (Call.Res BRes ERes ε) ε α → View → Prop
  | .pure a, v => R v (.ok a)
  | .raise e, v => R v (.error e)
  | .op (.txn b) k, v => L.Callable v b ∧ ∀ v', L.Le v v' → L.Inv v' → ∀ now,
      L.TxSafe now (fun v (r : Except ε (BRes b)) => L.Ends b r ∧ Safe R (k r) v) (M.body b) [] v'
  | .op (.ext e) k, v => L.Allowed v e ∧ ∀ v', L.Le v v' → L.Inv v' → ∀ r : ERes e,
      L.Answers v' e r → Safe R (k r) v'

/-- A process is safe. -/
def StatusSafe (v : View) : Status Write Lock Stmt Block Ext ε Ans SRes BRes ERes → Prop
  | .run p => L.Safe (fun _ _ => True) p v
  | .inTxn b t k => L.Callable v b ∧ L.TxSafe t.now
      (fun v (r : Except ε (BRes b)) => L.Ends b r ∧
        L.Safe (fun _ _ => True) (k r) v) t.rest t.writes v
  | _ => True

/-- All processes are. -/
def AllSafe (v : View) (s : Machine.State M) : Prop := ∀ p ∈ s.procs, L.StatusSafe v p.status

section rules

variable {L} {α β : Type}

/-- What is asked of the end of a program grows with the view. -/
def Mono (L : Logic M View) {α : Type} (R : View → Except ε α → Prop) : Prop :=
  ∀ {v v' r}, L.Le v v' → R v r → R v' r

theorem TxSafe.mono (hL : L.Lawful) {now : ℕ} {Q : View → Except ε α → Prop} (hQ : Mono L Q) :
    ∀ {p : Prog Stmt SRes ε α} {ws : List Write} {v v' : View}, L.TxSafe now Q p ws v → L.Le v v' →
      L.TxSafe now Q p ws v'
  | .pure _, _, _, _, h, hle => hQ hle h
  | .raise _, _, _, _, h, hle => hQ hle h
  | .op _ _, _, _, _, h, hle => fun v'' hle' => h v'' (hL.trans hle hle')

theorem TxSafe.op {now : ℕ} {Q : View → Except ε α → Prop} {o : Stmt}
    {kk : SRes o → Prog Stmt SRes ε α}
    {ws : List Write} {v : View}
    (h : ∀ v', L.Le v v' → L.Inv v' → ∀ pick r ws',
      M.exec ⟨now, pick⟩ (M.applyAll (L.db v') ws) o = some (r, ws') →
        L.TxSafe now Q (kk r) (ws ++ ws') v') : L.TxSafe now Q (.op o kk) ws v := h

theorem TxSafe.stmt {now : ℕ} {Q : View → Except ε α → Prop} {o : Stmt}
    {kk : SRes o → Prog Stmt SRes ε α} {ws : List Write} {v : View}
    (h : ∀ v' r ws', L.TxSafe now Q (kk r) ws' v') : L.TxSafe now Q (.op o kk) ws v :=
  fun v' _ _ _ r _ _ => h v' r _

theorem TxSafe.ite {now : ℕ} {Q : View → Except ε α → Prop} {c : Prop} [Decidable c]
    {p q : Prog Stmt SRes ε α} {ws : List Write} {v : View} (hp : c → L.TxSafe now Q p ws v)
    (hq : ¬ c → L.TxSafe now Q q ws v) : L.TxSafe now Q (if c then p else q) ws v := by
  split_ifs with hc
  · exact hp hc
  · exact hq hc

theorem TxSafe.any (hL : L.Lawful) {now : ℕ} {Q : View → Except ε α → Prop} :
    ∀ {p : Prog Stmt SRes ε α} {ws : List Write} {v : View},
      (∀ v' r, L.Le v v' → Q v' r) → L.TxSafe now Q p ws v
  | .pure _, _, v, h => h v _ (hL.refl v)
  | .raise _, _, v, h => h v _ (hL.refl v)
  | .op _ _, _, _, h =>
    fun _ hle _ _ _ _ _ => TxSafe.any hL fun v'' r hle' => h v'' r (hL.trans hle hle')

theorem Safe.mono (hL : L.Lawful) {R : View → Except ε α → Prop} (hR : Mono L R) :
    ∀ {p : Prog (Call Block Ext) (Call.Res BRes ERes ε) ε α} {v v' : View}, L.Safe R p v →
      L.Le v v' → L.Safe R p v'
  | .pure _, _, _, h, hle => hR hle h
  | .raise _, _, _, h, hle => hR hle h
  | .op (.txn _) _, _, _, h, hle =>
    ⟨hL.callable hle h.1, fun v'' hle' => h.2 v'' (hL.trans hle hle')⟩
  | .op (.ext _) _, _, _, h, hle =>
    ⟨hL.allowed hle h.1, fun v'' hle' => h.2 v'' (hL.trans hle hle')⟩

/-- What the end of a transaction is asked may use that the view has grown. -/
theorem TxSafe.imp (hL : L.Lawful) {now : ℕ} {Q Q' : View → Except ε α → Prop} :
    ∀ {p : Prog Stmt SRes ε α} {ws : List Write} {v : View}, L.TxSafe now Q p ws v →
      (∀ v' r, L.Le v v' → Q v' r → Q' v' r) → L.TxSafe now Q' p ws v
  | .pure _, _, v, h, hQ => hQ v _ (hL.refl v) h
  | .raise _, _, v, h, hQ => hQ v _ (hL.refl v) h
  | .op _ _, _, _, h, hQ => fun v' hle hinv pick r ws' hx =>
    TxSafe.imp hL (h v' hle hinv pick r ws' hx) fun v'' r hle' => hQ v'' r (hL.trans hle hle')

theorem Safe.bind (hL : L.Lawful) {R : View → Except ε α → Prop} {R' : View → Except ε β → Prop}
    {f : α → Prog (Call Block Ext) (Call.Res BRes ERes ε) ε β} :
    ∀ {p : Prog (Call Block Ext) (Call.Res BRes ERes ε) ε α} {v : View}, L.Safe R p v →
      (∀ v' a, L.Le v v' → R v' (.ok a) → L.Safe R' (f a) v') →
      (∀ v' e, L.Le v v' → R v' (.error e) → R' v' (.error e)) → L.Safe R' (p.bind f) v
  | .pure a, v, h, hok, _ => hok v a (hL.refl v) h
  | .raise e, v, h, _, herror => herror v e (hL.refl v) h
  | .op (.txn _) _, _, h, hok, herror => ⟨h.1, fun v' hle hinv now =>
      (h.2 v' hle hinv now).imp hL fun _ _ hle' hr => ⟨hr.1, Safe.bind hL hr.2
        (fun v a hle'' => hok v a (hL.trans hle (hL.trans hle' hle'')))
        fun v e hle'' => herror v e (hL.trans hle (hL.trans hle' hle''))⟩⟩
  | .op (.ext _) _, _, h, hok, herror => ⟨h.1, fun v' hle hinv r hr =>
      Safe.bind hL (h.2 v' hle hinv r hr) (fun v a hle' => hok v a (hL.trans hle hle'))
        fun v e hle' => herror v e (hL.trans hle hle')⟩

theorem Safe.handle (hL : L.Lawful) {R R' : View → Except ε α → Prop}
    {f : ε → Prog (Call Block Ext) (Call.Res BRes ERes ε) ε α} :
    ∀ {p : Prog (Call Block Ext) (Call.Res BRes ERes ε) ε α} {v : View}, L.Safe R p v →
      (∀ v' a, L.Le v v' → R v' (.ok a) → R' v' (.ok a)) →
      (∀ v' e, L.Le v v' → R v' (.error e) → L.Safe R' (f e) v') → L.Safe R' (p.handle f) v
  | .pure a, v, h, hok, _ => hok v a (hL.refl v) h
  | .raise e, v, h, _, herror => herror v e (hL.refl v) h
  | .op (.txn _) _, _, h, hok, herror => ⟨h.1, fun v' hle hinv now =>
      (h.2 v' hle hinv now).imp hL fun _ _ hle' hr => ⟨hr.1, Safe.handle hL hr.2
        (fun v a hle'' => hok v a (hL.trans hle (hL.trans hle' hle'')))
        fun v e hle'' => herror v e (hL.trans hle (hL.trans hle' hle''))⟩⟩
  | .op (.ext _) _, _, h, hok, herror => ⟨h.1, fun v' hle hinv r hr =>
      Safe.handle hL (h.2 v' hle hinv r hr) (fun v a hle' => hok v a (hL.trans hle hle'))
        fun v e hle' => herror v e (hL.trans hle hle')⟩

theorem Safe.txn (hL : L.Lawful) {R : View → Except ε α → Prop} {b : Block}
    {k : Except ε (BRes b) → Prog (Call Block Ext) (Call.Res BRes ERes ε) ε α} {v : View}
    (hcall : L.Callable v b) (hends : ∀ r, L.Ends b r)
    (hk : ∀ v' r, L.Le v v' → L.Safe R (k r) v') :
    L.Safe R (.op (.txn b) k) v :=
  ⟨hcall, fun _ hle _ _ => TxSafe.any hL fun v'' r hle' => ⟨hends r, hk v'' r (hL.trans hle hle')⟩⟩

theorem Safe.ite {R : View → Except ε α → Prop} {c : Prop} [Decidable c]
    {p q : Prog (Call Block Ext) (Call.Res BRes ERes ε) ε α} {v : View} (hp : c → L.Safe R p v)
    (hq : ¬ c → L.Safe R q v) : L.Safe R (if c then p else q) v := by
  split_ifs with hc
  · exact hp hc
  · exact hq hc

theorem Safe.ofExcept {R : View → Except ε α → Prop} {x : Except ε β}
    {k : β → Prog (Call Block Ext) (Call.Res BRes ERes ε) ε α} {v : View}
    (herror : ∀ e, x = .error e → R v (.error e)) (hok : ∀ b, x = .ok b → L.Safe R (k b) v) :
    L.Safe R ((Prog.ofExcept x).bind k) v := by
  cases x with
  | error e => exact herror e rfl
  | ok b => exact hok b rfl

/-- A program that has only operations of which nothing is asked. -/
theorem Safe.of_uses (hL : L.Lawful) {S : Call Block Ext → Prop}
    (htxn : ∀ b, S (.txn b) → (∀ v, L.Callable v b) ∧ ∀ r, L.Ends b r)
    (hext : ∀ e, S (.ext e) → ∀ v, L.Allowed v e) :
    ∀ {p : Prog (Call Block Ext) (Call.Res BRes ERes ε) ε α} {v : View}, p.Uses S →
      L.Safe (fun _ _ => True) p v
  | .pure _, _, _ => trivial
  | .raise _, _, _ => trivial
  | .op (.txn b) _, v, h => Safe.txn hL ((htxn b h.1).1 v) (htxn b h.1).2
      fun _ r _ => Safe.of_uses hL htxn hext (h.2 r)
  | .op (.ext e) _, v, h => ⟨hext e h.1 v, fun _ _ _ r _ => Safe.of_uses hL htxn hext (h.2 r)⟩

end rules

/-! ### Steps of the machine -/

section steps

variable {L}

theorem StatusSafe.mono (hL : L.Lawful) {v v' : View}
    {st : Status Write Lock Stmt Block Ext ε Ans SRes BRes ERes} (h : L.StatusSafe v st)
    (hle : L.Le v v') : L.StatusSafe v' st := by
  cases st with
  | run p => exact Safe.mono hL (fun _ h => h) h hle
  | inTxn b t k =>
    refine ⟨hL.callable hle h.1, TxSafe.mono hL ?_ h.2 hle⟩
    exact fun hle' hr => ⟨hr.1, Safe.mono hL (fun _ h => h) hr.2 hle'⟩
  | _ => trivial

theorem StatusSafe.ends {v : View} {b : Block} {t : Txn Write Lock Stmt SRes ε (BRes b)}
    {k : Except ε (BRes b) → Prog (Call Block Ext) (Call.Res BRes ERes ε) ε Ans}
    (h : L.StatusSafe v (.inTxn b t k)) :
    (∀ a, t.rest = .pure a → L.Ends b (.ok a)) ∧ ∀ e, t.rest = .raise e → L.Ends b (.error e) := by
  obtain ⟨rest, ws, ls, now⟩ := t
  refine ⟨fun a ha => ?_, fun e he => ?_⟩
  · obtain rfl : rest = .pure a := ha
    exact h.2.1
  · obtain rfl : rest = .raise e := he
    exact h.2.1

theorem AllSafe.mono (hL : L.Lawful) {s : Machine.State M} {v v' : View} (h : L.AllSafe v s)
    (hle : L.Le v v') : L.AllSafe v' s :=
  fun p hp => StatusSafe.mono hL (h p hp) hle

variable [DecidableEq Lock]

/-- **The step of a process** is safe. -/
theorem StatusSafe.advance (hL : L.Lawful) {s : Machine.State M} {v v' : View}
    {pid : ℕ} {pick : Pick}
    {x : Start} {st st' : Status Write Lock Stmt Block Ext ε Ans SRes BRes ERes}
    {db : Db} {w : World}
    (hdb : L.db v = s.db) (hinv : L.Inv v) (h : L.StatusSafe v st) (hle : L.Le v v')
    (hinv' : L.Inv v')
    (hans : ∀ e k r, st = .run (.op (.ext e) k) → M.ext pid pick s.world e = some (r, w) →
      L.Answers v' e r)
    (hs : Machine.advance M s pid pick x st = some (db, w, st')) : L.StatusSafe v' st' := by
  cases st with
  | run p =>
    cases p with
    | pure a | raise e =>
      obtain ⟨-, -, rfl⟩ := by simpa only [Machine.advance, Option.some.injEq,
        Prod.mk.injEq] using hs
      trivial
    | op o k =>
      cases o with
      | txn b =>
        obtain ⟨-, -, rfl⟩ := by
          simpa only [Machine.advance, Option.some.injEq, Prod.mk.injEq] using hs
        exact ⟨hL.callable hle h.1, h.2 v' hle hinv' _⟩
      | ext e =>
        simp only [Machine.advance] at hs
        split at hs
        · rename_i r w' hw
          obtain ⟨-, rfl, rfl⟩ := by simpa only [Option.some.injEq, Prod.mk.injEq] using hs
          exact h.2 v' hle hinv' r (hans e k r rfl hw)
        · simp at hs
  | inTxn b t k =>
    obtain ⟨rest, ws, ls, now⟩ := t
    cases rest with
    | pure a | raise e =>
      obtain ⟨-, -, rfl⟩ := by simpa only [Machine.advance, Option.some.injEq,
        Prod.mk.injEq] using hs
      exact Safe.mono hL (fun _ h => h) h.2.2 hle
    | op o kk =>
      obtain ⟨r, ws', hx, -, rfl⟩ := Machine.advance_stmt hs
      rw [← hdb] at hx
      have hrest := h.2 v (hL.refl v) hinv pick r ws' hx
      exact StatusSafe.mono hL ⟨h.1, hrest⟩ hle
  | done out => simp [Machine.advance] at hs
  | killed => simp [Machine.advance] at hs

/-- **A step of the machine**, where a process that starts is safe and the answer of an external
action is right. -/
theorem AllSafe.step (hL : L.Lawful) {s s' : Machine.State M} {a : Action Start Pick} {v v' : View}
    (hdb : L.db v = s.db) (hinv : L.Inv v) (h : L.AllSafe v s) (hle : L.Le v v') (hinv' : L.Inv v')
    (hstart : ∀ x p, a = .start x → M.start s.world x = some p → L.Safe (fun _ _ => True) p v')
    (hans : ∀ pid pick x e k r w, a = .step pid pick →
      s.procs[pid]? = some ⟨x, .run (.op (.ext e) k)⟩ →
      M.ext pid pick s.world e = some (r, w) → L.Answers v' e r)
    (hs : M.step s a = some s') : L.AllSafe v' s' := by
  intro p hp
  obtain ⟨i, hi, rfl⟩ := List.getElem_of_mem hp
  have hi := List.getElem?_eq_getElem hi
  generalize s'.procs[i] = q at hi
  obtain ⟨x, st⟩ := q
  cases Machine.step_process hs hi with
  | own ha hq hadv =>
    refine StatusSafe.advance hL hdb hinv (h _ (List.mem_of_getElem? hq)) hle hinv' ?_ hadv
    rintro e k r rfl hw
    exact hans _ _ _ e k r _ ha hq hw
  | other hq => exact StatusSafe.mono hL (h _ (List.mem_of_getElem? hq)) hle
  | killed => trivial
  | started ha _ hstart' => exact hstart _ _ ha hstart'

end steps

end Logic

end Payflow.Lib
