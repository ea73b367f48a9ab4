import Payflow.Lib.Local
import Payflow.Lib.Protocol

/-! # A process on its own

What a process does while no other process takes a step. `SoloTxn` says of a transaction, and `Solo`
of a program, how it ends, by recursion on the program and for all answers of the environment that
meet a condition. `RunsSolo` are the runs: a run that has ended has ended so (`RunsSolo.ends`), and
if the others hold no locks and every operation can be answered, some run ends (`exists_end`). After a
crash nobody holds one (`locks_crash`). -/

namespace Payflow.Lib

variable {Db Write Lock Stmt Pick Block Ext ε Ans Start World : Type}
  {SRes : Stmt → Type} {BRes : Block → Type} {ERes : Ext → Type} {α β : Type}

/-- The transaction, alone on the store `D`, ends only as `Q` says: with its result, and the store
as its statements have left it. -/
def SoloTxn (S : Store Db Write Lock Stmt Pick SRes) (now : ℕ) (Q : Except ε α → Db → Prop) :
    Prog Stmt SRes ε α → Db → Prop
  | .pure a, D => Q (.ok a) D
  | .raise e, D => Q (.error e) D
  | .op st k, D => ∀ pick r ws, S.exec ⟨now, pick⟩ D st = some (r, ws) →
      SoloTxn S now Q (k r) (S.applyAll D ws)

section txn

variable {S : Store Db Write Lock Stmt Pick SRes} {now : ℕ} {Q Q' : Except ε α → Db → Prop}

theorem Store.applyAll_append (D : Db) (ws ws' : List Write) :
    S.applyAll D (ws ++ ws') = S.applyAll (S.applyAll D ws) ws' :=
  List.foldl_append

theorem SoloTxn.mono (hQ : ∀ res D, Q res D → Q' res D) :
    ∀ {p : Prog Stmt SRes ε α} {D : Db}, SoloTxn S now Q p D → SoloTxn S now Q' p D
  | .pure _, D, h => hQ _ D h
  | .raise _, D, h => hQ _ D h
  | .op _ _, _, h => fun pick r ws hx => SoloTxn.mono hQ (h pick r ws hx)

theorem SoloTxn.ite {c : Prop} [Decidable c] {p q : Prog Stmt SRes ε α} {D : Db}
    (hp : c → SoloTxn S now Q p D) (hq : ¬ c → SoloTxn S now Q q D) :
    SoloTxn S now Q (if c then p else q) D := by
  split_ifs with hc
  · exact hp hc
  · exact hq hc

theorem SoloTxn.and : ∀ {p : Prog Stmt SRes ε α} {D : Db}, SoloTxn S now Q p D →
    SoloTxn S now Q' p D → SoloTxn S now (fun res D' => Q res D' ∧ Q' res D') p D
  | .pure _, _, h, h' => ⟨h, h'⟩
  | .raise _, _, h, h' => ⟨h, h'⟩
  | .op _ _, _, h, h' => fun pick r ws hx => (h pick r ws hx).and (h' pick r ws hx)

theorem SoloTxn.ofExcept {x : Except ε β} {k : β → Prog Stmt SRes ε α} {D : Db}
    (herror : ∀ e, x = .error e → Q (.error e) D)
    (hok : ∀ b, x = .ok b → SoloTxn S now Q (k b) D) :
    SoloTxn S now Q ((Prog.ofExcept x).bind k) D := by
  cases x with
  | error e => exact herror e rfl
  | ok b => exact hok b rfl

/-- A transaction keeps what all its statements keep, and it raises only what it can raise whatever
its statements answer. -/
theorem SoloTxn.of_follows {Keeps : Stmt → Prop} {I : Db → Prop} {E : ε → Prop}
    (hkeeps : ∀ v D st r ws, Keeps st → S.exec v D st = some (r, ws) → I D → I (S.applyAll D ws)) :
    ∀ {p : Prog Stmt SRes ε α} {D : Db},
      p.Follows (Prog.only Keeps) (fun _ _ => True) (fun _ e => E e) () → I D →
      SoloTxn S now (fun res D' => I D' ∧ ∀ e, res = .error e → E e) p D
  | .pure _, _, _, hi => ⟨hi, nofun⟩
  | .raise _, _, hp, hi => ⟨hi, fun _ he => Except.error.inj he ▸ hp⟩
  | .op _ _, _, hp, hi => fun _ r _ hx =>
      SoloTxn.of_follows hkeeps (hp.2 r) (hkeeps _ _ _ _ _ hp.1 hx hi)

end txn

namespace Machine

section program

variable (M : Machine Db Write Lock Stmt Pick Block Ext ε Ans Start World SRes BRes ERes)
  (pid : ℕ) (C : ℕ → (e : Ext) → ERes e → Prop)

/-- The program, alone on the store `D` and after `n` external actions, ends only as `Q` says, if
its external actions are answered as `C` allows. -/
def Solo (Q : Except ε α → Db → ℕ → Prop) :
    Prog (Call Block Ext) (Call.Res BRes ERes ε) ε α → Db → ℕ → Prop
  | .pure a, D, n => Q (.ok a) D n
  | .raise e, D, n => Q (.error e) D n
  | .op (.txn b) k, D, n => ∀ now, SoloTxn M.toStore now (fun res D' =>
      match res with
      | .ok a => Solo Q (k (.ok a : Except ε (BRes b))) D' n
      | .error e => Solo Q (k (.error e : Except ε (BRes b))) D n) (M.body b) D
  | .op (.ext e) k, D, n => ∀ pick w r w', M.ext pid pick w e = some (r, w') → C n e r →
      Solo Q (k r) D (n + 1)

/-- What is known of a process that ends only as `Q` says. -/
def SoloStatus (Q : Except ε Ans → Db → ℕ → Prop) (D : Db) (n : ℕ) :
    Status Write Lock Stmt Block Ext ε Ans SRes BRes ERes → Prop
  | .run p => Solo M pid C Q p D n
  | .inTxn b t k => SoloTxn M.toStore t.now (fun res D' =>
      match res with
      | .ok a => Solo M pid C Q (k (.ok a : Except ε (BRes b))) D' n
      | .error e => Solo M pid C Q (k (.error e : Except ε (BRes b))) D n)
      t.rest (M.applyAll D t.writes)
  | .done out => Q out D n
  | .killed => False

/-- The runs from `s₀`, after `n₀` external actions of the process, in which only that process takes
steps, its external actions are answered as `C` allows, and time passes. -/
inductive RunsSolo [DecidableEq Lock] (n₀ : ℕ) (s₀ : State M) : ℕ → State M → Prop
  | refl : RunsSolo n₀ s₀ n₀ s₀
  | tick {n s} (d : ℕ) : RunsSolo n₀ s₀ n s → RunsSolo n₀ s₀ n { s with clock := s.clock + d }
  | quiet {n s s' pick} : RunsSolo n₀ s₀ n s →
      (∀ x e k, s.procs[pid]? ≠ some ⟨x, .run (.op (.ext e) k)⟩) →
      M.step s (.step pid pick) = some s' → RunsSolo n₀ s₀ n s'
  | ext {n s s' x e k pick r w} : RunsSolo n₀ s₀ n s →
      s.procs[pid]? = some ⟨x, .run (.op (.ext e) k)⟩ → M.ext pid pick s.world e = some (r, w) →
      C n e r → M.step s (.step pid pick) = some s' → RunsSolo n₀ s₀ (n + 1) s'

end program

variable {M : Machine Db Write Lock Stmt Pick Block Ext ε Ans Start World SRes BRes ERes}
  {pid : ℕ} {C : ℕ → (e : Ext) → ERes e → Prop}

/-! ### The rules -/

section rules

variable {Q Q' : Except ε α → Db → ℕ → Prop}

theorem Solo.bind {R : Except ε β → Db → ℕ → Prop} :
    ∀ {p : Prog (Call Block Ext) (Call.Res BRes ERes ε) ε α}
      {f : α → Prog (Call Block Ext) (Call.Res BRes ERes ε) ε β} {D : Db} {n : ℕ},
      Solo M pid C Q p D n → (∀ a D n, Q (.ok a) D n → Solo M pid C R (f a) D n) →
      (∀ e D n, Q (.error e) D n → R (.error e) D n) → Solo M pid C R (p.bind f) D n
  | .pure a, _, D, n, h, hok, _ => hok a D n h
  | .raise e, _, D, n, h, _, herror => herror e D n h
  | .op (.txn _) _, _, _, _, h, hok, herror => fun now => (h now).mono fun res _ hres => by
      cases res with
      | ok a => exact Solo.bind hres hok herror
      | error e => exact Solo.bind hres hok herror
  | .op (.ext _) _, _, _, _, h, hok, herror => fun pick w r w' hx hC =>
      Solo.bind (h pick w r w' hx hC) hok herror

theorem Solo.txn {b : Block} {k : Except ε (BRes b) →
    Prog (Call Block Ext) (Call.Res BRes ERes ε) ε α}
    {D : Db} {n : ℕ} {R : Except ε (BRes b) → Db → Prop}
    (hb : ∀ now, SoloTxn M.toStore now R (M.body b) D)
    (hok : ∀ r D', R (.ok r) D' → Solo M pid C Q (k (.ok r)) D' n)
    (herror : ∀ e D', R (.error e) D' → Solo M pid C Q (k (.error e)) D n) :
    Solo M pid C Q (.op (.txn b) k) D n :=
  fun now => (hb now).mono fun res D' hres => by
    cases res with
    | ok r => exact hok r D' hres
    | error e => exact herror e D' hres

theorem Solo.handle :
    ∀ {p : Prog (Call Block Ext) (Call.Res BRes ERes ε) ε α}
      {f : ε → Prog (Call Block Ext) (Call.Res BRes ERes ε) ε α} {D : Db} {n : ℕ},
      Solo M pid C Q p D n → (∀ a D n, Q (.ok a) D n → Q' (.ok a) D n) →
      (∀ e D n, Q (.error e) D n → Solo M pid C Q' (f e) D n) → Solo M pid C Q' (p.handle f) D n
  | .pure a, _, D, n, h, hok, _ => hok a D n h
  | .raise e, _, D, n, h, _, herror => herror e D n h
  | .op (.txn _) _, _, _, _, h, hok, herror => fun now => (h now).mono fun res _ hres => by
      cases res with
      | ok a => exact Solo.handle hres hok herror
      | error e => exact Solo.handle hres hok herror
  | .op (.ext _) _, _, _, _, h, hok, herror => fun pick w r w' hx hC =>
      Solo.handle (h pick w r w' hx hC) hok herror

theorem Solo.andFinally {p : Prog (Call Block Ext) (Call.Res BRes ERes ε) ε α}
    {q : Prog (Call Block Ext) (Call.Res BRes ERes ε) ε Unit} {D : Db} {n : ℕ}
    (hp : Solo M pid C Q p D n)
    (hq : ∀ res D n, Q res D n → Solo M pid C (fun out D n =>
      match out with
      | .ok _ => Q' res D n
      | .error e => Q' (.error e) D n) q D n) : Solo M pid C Q' (p.andFinally q) D n := by
  have hfirst : Solo M pid C (fun out D n =>
      match out with
      | .ok res => Q res D n
      | .error _ => False)
      ((p.bind fun a => .pure (Except.ok a)).handle fun e => .pure (Except.error e)) D n := by
    have hbind : Solo M pid C (fun out D n =>
        match out with
        | .ok res => Q res D n
        | .error e => Q (.error e) D n) (p.bind fun a => .pure (Except.ok a)) D n :=
      hp.bind (fun a D n h => h) fun e D n h => h
    exact hbind.handle (fun res D n h => h) fun e D n h => h
  refine hfirst.bind (fun res D n h => ?_) fun e D n h => h.elim
  refine (hq res D n h).bind (fun _ D n h => ?_) fun e D n h => h
  cases res with
  | ok a => exact h
  | error e => exact h

theorem Solo.ite {c : Prop} [Decidable c]
    {p q : Prog (Call Block Ext) (Call.Res BRes ERes ε) ε α} {D : Db} {n : ℕ}
    (hp : c → Solo M pid C Q p D n) (hq : ¬ c → Solo M pid C Q q D n) :
    Solo M pid C Q (if c then p else q) D n := by
  split_ifs with hc
  · exact hp hc
  · exact hq hc

theorem Solo.ofExcept {x : Except ε β}
    {k : β → Prog (Call Block Ext) (Call.Res BRes ERes ε) ε α} {D : Db} {n : ℕ}
    (herror : ∀ e, x = .error e → Q (.error e) D n)
    (hok : ∀ b, x = .ok b → Solo M pid C Q (k b) D n) :
    Solo M pid C Q ((Prog.ofExcept x).bind k) D n := by
  cases x with
  | error e => exact herror e rfl
  | ok b => exact hok b rfl

end rules

/-! ### The runs -/

variable [DecidableEq Lock]

section runs

variable {Q : Except ε Ans → Db → ℕ → Prop} {n₀ n : ℕ} {s₀ s : State M}

theorem SoloStatus.quiet {s' : State M} {pick : Pick} {x : Start}
    {st st' : Status Write Lock Stmt Block Ext ε Ans SRes BRes ERes}
    (h : SoloStatus M pid C Q s.db n st) (hst : ∀ e k, st ≠ .run (.op (.ext e) k))
    (hadv : advance M s pid pick x st = some (s'.db, s'.world, st')) :
    SoloStatus M pid C Q s'.db n st' := by
  cases st with
  | run p =>
    cases p with
    | pure a | raise e =>
      simp only [advance, Option.some.injEq, Prod.mk.injEq] at hadv
      obtain ⟨hdb, -, rfl⟩ := hadv
      exact hdb ▸ h
    | op o k =>
      cases o with
      | txn b =>
        simp only [advance, Option.some.injEq, Prod.mk.injEq] at hadv
        obtain ⟨hdb, -, rfl⟩ := hadv
        exact hdb ▸ h s.clock
      | ext e => exact absurd rfl (hst e k)
  | inTxn b t k =>
    obtain ⟨rest, ws, ls, now⟩ := t
    cases rest with
    | pure r =>
      simp only [advance, Option.some.injEq, Prod.mk.injEq] at hadv
      obtain ⟨hdb, -, rfl⟩ := hadv
      exact hdb ▸ h
    | raise e =>
      simp only [advance, Option.some.injEq, Prod.mk.injEq] at hadv
      obtain ⟨hdb, -, rfl⟩ := hadv
      exact hdb ▸ h
    | op o kk =>
      obtain ⟨r, ws', hx, hdb, rfl⟩ := advance_stmt hadv
      have hnext := h _ r ws' hx
      rw [← Store.applyAll_append] at hnext
      exact hdb ▸ hnext
  | done out => simp [advance] at hadv
  | killed => simp [advance] at hadv

/-- **A run on its own** ends only as the program does. -/
theorem RunsSolo.ends (h : RunsSolo M pid C n₀ s₀ n s) {x : Start}
    {st₀ : Status Write Lock Stmt Block Ext ε Ans SRes BRes ERes}
    (hp : s₀.procs[pid]? = some ⟨x, st₀⟩) (h₀ : SoloStatus M pid C Q s₀.db n₀ st₀) :
    ∃ st, s.procs[pid]? = some ⟨x, st⟩ ∧ SoloStatus M pid C Q s.db n st := by
  induction h with
  | refl => exact ⟨st₀, hp, h₀⟩
  | tick d _ ih => exact ih
  | quiet _ hev hs ih =>
    obtain ⟨st, hp, hst⟩ := ih
    obtain ⟨y, st₁, st', hp₁, hp', hadv⟩ := step_own hs
    obtain ⟨rfl, rfl⟩ := Proc.mk.inj (Option.some.inj (hp.symm.trans hp₁))
    exact ⟨st', hp', hst.quiet (fun e k he => hev x e k (he ▸ hp)) hadv⟩
  | ext _ hext hx hC hs ih =>
    obtain ⟨st, hp, hst⟩ := ih
    obtain ⟨rfl, rfl⟩ := Proc.mk.inj (Option.some.inj (hp.symm.trans hext))
    obtain ⟨y, st₁, st', hp₁, hp', hadv⟩ := step_own hs
    obtain ⟨rfl, rfl⟩ := Proc.mk.inj (Option.some.inj (hp.symm.trans hp₁))
    simp only [advance, hx, Option.some.injEq, Prod.mk.injEq] at hadv
    obtain ⟨hdb, -, rfl⟩ := hadv
    exact ⟨_, hp', hdb ▸ hst _ _ _ _ hx hC⟩

theorem step_others {s' : State M} {pick : Pick} (hs : M.step s (.step pid pick) = some s') :
    s'.procs.eraseIdx pid = s.procs.eraseIdx pid := by
  simp only [step] at hs
  split at hs
  · split at hs
    · obtain rfl := Option.some.inj hs
      exact List.eraseIdx_set_eq
    · simp at hs
  · simp at hs

theorem RunsSolo.others (h : RunsSolo M pid C n₀ s₀ n s) :
    s.procs.eraseIdx pid = s₀.procs.eraseIdx pid := by
  induction h with
  | refl => rfl
  | tick d _ ih => exact ih
  | quiet _ _ hs ih => exact (step_others hs).trans ih
  | ext _ _ _ _ hs ih => exact (step_others hs).trans ih

theorem RunsSolo.clock_le (h : RunsSolo M pid C n₀ s₀ n s) : s₀.clock ≤ s.clock := by
  induction h with
  | refl => exact Nat.le_refl _
  | tick d _ ih => exact Nat.le_trans ih (Nat.le_add_right _ _)
  | quiet _ _ hs ih => exact Nat.le_trans ih (Machine.clock_le hs)
  | ext _ _ _ _ hs ih => exact Nat.le_trans ih (Machine.clock_le hs)

theorem RunsSolo.trans {n' : ℕ} {s' : State M} (h : RunsSolo M pid C n₀ s₀ n s)
    (h' : RunsSolo M pid C n s n' s') : RunsSolo M pid C n₀ s₀ n' s' := by
  induction h' with
  | refl => exact h
  | tick d _ ih => exact .tick d ih
  | quiet _ hev hs ih => exact .quiet ih hev hs
  | ext _ hp hx hC hs ih => exact .ext ih hp hx hC hs

theorem RunsSolo.reachable (h : RunsSolo M pid C n₀ s₀ n s) : Reachable M s₀ s := by
  induction h with
  | refl => exact .refl
  | tick d _ ih => exact .step (a := .tick d) ih trivial rfl
  | quiet _ _ hs ih => exact .step ih trivial hs
  | ext _ _ _ _ hs ih => exact .step ih trivial hs

end runs

/-! ### The external actions of a run -/

section traced

variable (M pid)

/-- The runs from `s₀` in which only that process takes steps, and time passes, with its external
actions and what they were answered. -/
inductive Traced (s₀ : State M) : List (Sigma ERes) → State M → Prop
  | refl : Traced s₀ [] s₀
  | tick {tr s} (d : ℕ) : Traced s₀ tr s → Traced s₀ tr { s with clock := s.clock + d }
  | quiet {tr s s' pick} : Traced s₀ tr s →
      (∀ x e k, s.procs[pid]? ≠ some ⟨x, .run (.op (.ext e) k)⟩) →
      M.step s (.step pid pick) = some s' → Traced s₀ tr s'
  | ext {tr s s' x e k pick r w} : Traced s₀ tr s →
      s.procs[pid]? = some ⟨x, .run (.op (.ext e) k)⟩ → M.ext pid pick s.world e = some (r, w) →
      M.step s (.step pid pick) = some s' → Traced s₀ (tr ++ [⟨e, r⟩]) s'

/-- The actions are answered as in the trace. -/
def AnsweredAs (tr : List (Sigma ERes)) (n : ℕ) (e : Ext) (r : ERes e) :
    Prop := tr[n]? = some ⟨e, r⟩

variable {M pid} {s₀ s : State M} {tr : List (Sigma ERes)}

theorem Traced.runsSolo (h : Traced M pid s₀ tr s) :
    ∀ rest, RunsSolo M pid (AnsweredAs (tr ++ rest)) 0 s₀ tr.length s := by
  induction h with
  | refl => exact fun rest => .refl
  | tick d _ ih => exact fun rest => .tick d (ih rest)
  | quiet _ hev hs ih => exact fun rest => .quiet (ih rest) hev hs
  | @ext tr s s' x e k pick r w _ hp hx hs ih =>
    intro rest
    have hrun := ih (⟨e, r⟩ :: rest)
    rw [List.length_append, List.append_assoc]
    exact .ext hrun hp hx (by simp [AnsweredAs]) hs

/-- Every run alone has a trace, which is answered as the condition says. -/
theorem RunsSolo.traced {n₀ n : ℕ} (h : RunsSolo M pid C n₀ s₀ n s) :
    ∃ tr, Traced M pid s₀ tr s ∧ n = n₀ + tr.length ∧
      ∀ i e r, tr[i]? = some (⟨e, r⟩ : Sigma ERes) → C (n₀ + i) e r := by
  induction h with
  | refl => exact ⟨[], .refl, rfl, fun i e r h => by simp at h⟩
  | tick d _ ih =>
    obtain ⟨tr, htr, hn, hC⟩ := ih
    exact ⟨tr, .tick d htr, hn, hC⟩
  | quiet _ hev hs ih =>
    obtain ⟨tr, htr, hn, hC⟩ := ih
    exact ⟨tr, .quiet htr hev hs, hn, hC⟩
  | @ext n s s' x e k pick r w _ hp hx hext hs ih =>
    obtain ⟨tr, htr, hn, hC⟩ := ih
    refine ⟨tr ++ [⟨e, r⟩], .ext htr hp hx hs, by simp [hn]; omega, fun i e' r' hi => ?_⟩
    rcases Nat.lt_trichotomy i tr.length with hlt | rfl | hgt
    · rw [List.getElem?_append_left hlt] at hi
      exact hC i e' r' hi
    · rw [List.getElem?_concat_length] at hi
      obtain ⟨rfl, hr⟩ := Sigma.mk.inj (Option.some.inj hi)
      obtain rfl := eq_of_heq hr
      exact hn ▸ hext
    · rw [List.getElem?_eq_none (by simp; omega)] at hi
      cases hi

/-- What an own step that is no external action does to the world. -/
theorem advance_world {pick : Pick} {x : Start} {db : Db} {w : World}
    {st st' : Status Write Lock Stmt Block Ext ε Ans SRes BRes ERes}
    (hst : ∀ e k, st ≠ .run (.op (.ext e) k))
    (hadv : advance M s pid pick x st = some (db, w, st')) :
    (∃ out, st' = .done out ∧ w = M.finish x out s.world) ∨
      ((∀ out, st' ≠ .done out) ∧ w = s.world) := by
  cases st with
  | run p =>
    cases p with
    | pure a | raise e =>
      simp only [advance, Option.some.injEq, Prod.mk.injEq] at hadv
      obtain ⟨-, rfl, rfl⟩ := hadv
      exact Or.inl ⟨_, rfl, rfl⟩
    | op o k =>
      cases o with
      | txn b =>
        simp only [advance, Option.some.injEq, Prod.mk.injEq] at hadv
        obtain ⟨-, rfl, rfl⟩ := hadv
        exact Or.inr ⟨by simp, rfl⟩
      | ext e => exact absurd rfl (hst e k)
  | inTxn b t k =>
    obtain ⟨rest, ws, ls, now⟩ := t
    cases rest with
    | pure r | raise e =>
      simp only [advance, Option.some.injEq, Prod.mk.injEq] at hadv
      obtain ⟨-, rfl, rfl⟩ := hadv
      exact Or.inr ⟨by simp, rfl⟩
    | op o kk =>
      simp only [advance] at hadv
      split_ifs at hadv
      split at hadv
      · simp only [Option.some.injEq, Prod.mk.injEq] at hadv
        obtain ⟨-, rfl, rfl⟩ := hadv
        exact Or.inr ⟨by simp, rfl⟩
      · cases hadv
  | done out => simp [advance] at hadv
  | killed => simp [advance] at hadv

/-- **A traced run** ends only as the program does with the answers of the trace. -/
theorem Traced.ends {Q : Except ε Ans → Db → ℕ → Prop} (h : Traced M pid s₀ tr s) {x : Start}
    {st₀ : Status Write Lock Stmt Block Ext ε Ans SRes BRes ERes} {out : Except ε Ans}
    (hp : s₀.procs[pid]? = some ⟨x, st₀⟩)
    (h₀ : SoloStatus M pid (AnsweredAs tr) Q s₀.db 0 st₀)
    (hend : s.procs[pid]? = some ⟨x, .done out⟩) :
    Q out s.db tr.length := by
  have hrun := h.runsSolo []
  rw [List.append_nil] at hrun
  obtain ⟨st, hp', hst⟩ := hrun.ends hp h₀
  obtain ⟨-, rfl⟩ := Proc.mk.inj (Option.some.inj (hend.symm.trans hp'))
  exact hst

end traced

/-! ### Progress -/

/-- The environment can answer every statement, and every external action as `C` allows. -/
structure Answerable
    (M : Machine Db Write Lock Stmt Pick Block Ext ε Ans Start World SRes BRes ERes) (pid : ℕ)
    (C : ℕ → (e : Ext) → ERes e → Prop) : Prop where
  pick : Nonempty Pick
  exec : ∀ now D st, ∃ pick r ws, M.exec ⟨now, pick⟩ D st = some (r, ws)
  ext : ∀ n w e, ∃ pick r w', M.ext pid pick w e = some (r, w') ∧ C n e r

section progress

variable {n : ℕ} {x : Start}

theorem step_advance {s : State M} (pick : Pick)
    {st st' : Status Write Lock Stmt Block Ext ε Ans SRes BRes ERes} {db : Db} {w : World}
    (hp : s.procs[pid]? = some ⟨x, st⟩) (hlocks : othersLocks M s pid = [])
    (hadv : advance M s pid pick x st = some (db, w, st')) :
    ∃ s', M.step s (.step pid pick) = some s' ∧ s'.procs[pid]? = some ⟨x, st'⟩ ∧
      othersLocks M s' pid = [] := by
  refine ⟨{ s with db := db, world := w, procs := s.procs.set pid ⟨x, st'⟩ }, ?_, ?_, ?_⟩
  · simp only [step, hp, hadv]
  · exact List.getElem?_set_self (List.getElem?_eq_some_iff.mp hp).1
  · unfold othersLocks at hlocks ⊢
    rwa [List.eraseIdx_set_eq]

theorem step_quiet {s : State M} (pick : Pick)
    {st st' : Status Write Lock Stmt Block Ext ε Ans SRes BRes ERes} {db : Db} {w : World}
    (hp : s.procs[pid]? = some ⟨x, st⟩) (hlocks : othersLocks M s pid = [])
    (hst : ∀ e k, st ≠ .run (.op (.ext e) k))
    (hadv : advance M s pid pick x st = some (db, w, st')) :
    ∃ s', RunsSolo M pid C n s n s' ∧ s'.procs[pid]? = some ⟨x, st'⟩ ∧
      othersLocks M s' pid = [] := by
  obtain ⟨s', hs, hp', hlocks'⟩ := step_advance pick hp hlocks hadv
  refine ⟨s', .quiet .refl (fun y e k he => hst e k ?_) hs, hp', hlocks'⟩
  exact (Proc.mk.inj (Option.some.inj (hp.symm.trans he))).2

theorem exists_end_txn (hA : Answerable M pid C) {b : Block}
    {k : Except ε (BRes b) → Prog (Call Block Ext) (Call.Res BRes ERes ε) ε Ans} :
    ∀ (rest : Prog Stmt SRes ε (BRes b)) {s : State M} {ws : List Write} {ls : List Lock} {now : ℕ},
      s.procs[pid]? = some ⟨x, .inTxn b ⟨rest, ws, ls, now⟩ k⟩ → othersLocks M s pid = [] →
      ∃ s' res, RunsSolo M pid C n s n s' ∧ s'.procs[pid]? = some ⟨x, .run (k res)⟩ ∧
        othersLocks M s' pid = []
  | .pure a, s, ws, ls, now, hp, hlocks => by
    obtain ⟨pick⟩ := hA.pick
    obtain ⟨s', hrun, hp', hlocks'⟩ := step_quiet pick hp hlocks (by simp) rfl
    exact ⟨s', .ok a, hrun, hp', hlocks'⟩
  | .raise e, s, ws, ls, now, hp, hlocks => by
    obtain ⟨pick⟩ := hA.pick
    obtain ⟨s', hrun, hp', hlocks'⟩ := step_quiet pick hp hlocks (by simp) rfl
    exact ⟨s', .error e, hrun, hp', hlocks'⟩
  | .op st kk, s, ws, ls, now, hp, hlocks => by
    obtain ⟨pick, r, ws', hx⟩ := hA.exec now (M.applyAll s.db ws) st
    have hadv : advance M s pid pick x (.inTxn b ⟨.op st kk, ws, ls, now⟩ k) =
        some (s.db, s.world, .inTxn b ⟨kk r, ws ++ ws',
          ls ++ M.locks ⟨now, pick⟩ (M.applyAll s.db ws) st, now⟩ k) := by
      simp only [advance, hlocks, hx]
      exact if_pos fun l _ => List.not_mem_nil
    obtain ⟨s₁, hrun₁, hp₁, hlocks₁⟩ := step_quiet pick hp hlocks (by simp) hadv
    obtain ⟨s₂, res, hrun₂, hp₂, hlocks₂⟩ := exists_end_txn hA (kk r) hp₁ hlocks₁
    exact ⟨s₂, res, hrun₁.trans hrun₂, hp₂, hlocks₂⟩

/-- **A process alone comes to its end**, where every operation can be answered. -/
theorem exists_end (hA : Answerable M pid C) :
    ∀ (p : Prog (Call Block Ext) (Call.Res BRes ERes ε) ε Ans) {s : State M} {n : ℕ},
      s.procs[pid]? = some ⟨x, .run p⟩ → othersLocks M s pid = [] →
      ∃ n' s' out, RunsSolo M pid C n s n' s' ∧ s'.procs[pid]? = some ⟨x, .done out⟩
  | .pure a, s, n, hp, hlocks => by
    obtain ⟨pick⟩ := hA.pick
    obtain ⟨s', hrun, hp', -⟩ := step_quiet pick hp hlocks (fun _ _ => nofun) rfl
    exact ⟨n, s', .ok a, hrun, hp'⟩
  | .raise e, s, n, hp, hlocks => by
    obtain ⟨pick⟩ := hA.pick
    obtain ⟨s', hrun, hp', -⟩ := step_quiet pick hp hlocks (fun _ _ => nofun) rfl
    exact ⟨n, s', .error e, hrun, hp'⟩
  | .op (.txn b) k, s, n, hp, hlocks => by
    obtain ⟨pick⟩ := hA.pick
    obtain ⟨s₁, hrun₁, hp₁, hlocks₁⟩ :=
      step_quiet pick hp hlocks (fun _ _ => nofun) rfl
    obtain ⟨s₂, res, hrun₂, hp₂, hlocks₂⟩ := exists_end_txn hA (M.body b) hp₁ hlocks₁
    obtain ⟨n', s', out, hrun, hp'⟩ := exists_end hA (k res) hp₂ hlocks₂
    exact ⟨n', s', out, (hrun₁.trans hrun₂).trans hrun, hp'⟩
  | .op (.ext e) k, s, n, hp, hlocks => by
    obtain ⟨pick, r, w, hx, hC⟩ := hA.ext n s.world e
    have hadv : advance M s pid pick x (.run (.op (.ext e) k)) =
        some (s.db, w, .run (k r)) := by
      simp only [advance, hx]
    obtain ⟨s₁, hs, hp₁, hlocks₁⟩ := step_advance pick hp hlocks hadv
    obtain ⟨n', s', out, hrun, hp'⟩ := exists_end hA (k r) hp₁ hlocks₁
    exact ⟨n', s', out, (RunsSolo.ext .refl hp hx hC hs).trans hrun, hp'⟩

theorem exists_end_of_live (hA : Answerable M pid C) {s : State M} {n : ℕ}
    {st : Status Write Lock Stmt Block Ext ε Ans SRes BRes ERes}
    (hp : s.procs[pid]? = some ⟨x, st⟩) (hst : st ≠ .killed) (hlocks : othersLocks M s pid = []) :
    ∃ n' s' out, RunsSolo M pid C n s n' s' ∧ s'.procs[pid]? = some ⟨x, .done out⟩ := by
  cases st with
  | run p => exact exists_end hA p hp hlocks
  | inTxn b t k =>
    obtain ⟨s₁, res, hrun₁, hp₁, hlocks₁⟩ := exists_end_txn hA t.rest hp hlocks
    obtain ⟨n', s', out, hrun, hp'⟩ := exists_end hA (k res) hp₁ hlocks₁
    exact ⟨n', s', out, hrun₁.trans hrun, hp'⟩
  | done out => exact ⟨n, s, out, .refl, hp⟩
  | killed => exact absurd rfl hst

end progress

/-! ### A crash -/

section crash

/-- The process after a crash. -/
def Proc.crashed (p : Proc M) : Proc M := if p.status.live then ⟨p.origin, .killed⟩ else p

/-- All processes are killed, and what they have not committed is lost. -/
def crash (s : State M) : State M := { s with procs := s.procs.map Proc.crashed }

theorem crash_reachable (s : State M) :
    ReachableBy M (fun _ a => ∃ pid, a = .kill pid) s (crash s) := by
  suffices h : ∀ (qs ps : List (Proc M)),
      ReachableBy M (fun _ a => ∃ pid, a = .kill pid) s { s with procs := ps ++ qs } →
      ReachableBy M (fun _ a => ∃ pid, a = .kill pid) s
        { s with procs := ps ++ qs.map Proc.crashed } from h s.procs [] .refl
  intro qs
  induction qs with
  | nil => exact fun ps h => h
  | cons q qs ih =>
    intro ps h
    have hq : ReachableBy M (fun _ a => ∃ pid, a = .kill pid) s
        { s with procs := (ps ++ [q.crashed]) ++ qs } := by
      rw [List.append_assoc]
      by_cases hlive : q.status.live
      · refine .step h ⟨ps.length, rfl⟩ ?_
        simp [step, Proc.crashed, hlive]
      · rwa [show q.crashed = q from if_neg hlive]
    have hrest := ih (ps ++ [q.crashed]) hq
    rwa [List.append_assoc] at hrest

omit [DecidableEq Lock] in
theorem locks_crash {s : State M} {p : Proc M} (hp : p ∈ (crash s).procs) : p.status.locks = [] := by
  obtain ⟨q, -, rfl⟩ := List.mem_map.mp hp
  unfold Proc.crashed
  split_ifs with hlive
  · rfl
  · revert hlive
    cases q.status <;> simp [Status.live, Status.locks]

end crash

end Machine

end Payflow.Lib
