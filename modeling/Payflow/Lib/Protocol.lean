import Payflow.Lib.Atomic
import Mathlib.Logic.Function.Basic

/-! # Protocols

A protocol says which operations a program may perform next, by a state that its operations and
their results move on. A `Discipline` gives every process of a machine a protocol by its role. The
states of the protocols are no part of the machine: they are kept next to a run, as a history
(`Followed`), and every step between transactions moves that history on (`Guided`). -/

namespace Payflow.Lib

/-- A protocol for programs: the operations that are allowed in a state, and the state after one has
been answered. -/
structure Protocol (Op : Type) (Res : Op → Type) (σ : Type) where
  allow : σ → Op → Prop
  next : σ → (o : Op) → Res o → σ

namespace Prog

section follows

variable {Op : Type} {Res : Op → Type} {ε α β σ : Type} {A : Protocol Op Res σ}

/-- From the state `s` on, the program keeps to the protocol, whatever its operations answer; it
returns only as `Q` and raises only as `R` allows. -/
def Follows (A : Protocol Op Res σ) (Q : σ → α → Prop) (R : σ → ε → Prop) :
    σ → Prog Op Res ε α → Prop
  | s, pure a => Q s a
  | s, raise e => R s e
  | s, op o k => A.allow s o ∧ ∀ r, Follows A Q R (A.next s o r) (k r)

theorem Follows.bind {Q : σ → α → Prop} {Q' : σ → β → Prop} {R : σ → ε → Prop} :
    ∀ {p : Prog Op Res ε α} {f : α → Prog Op Res ε β} {s : σ}, Follows A Q R s p →
      (∀ s a, Q s a → Follows A Q' R s (f a)) → Follows A Q' R s (p.bind f)
  | pure a, _, s, hp, hf => hf s a hp
  | raise _, _, _, hp, _ => hp
  | op _ _, _, _, hp, hf => ⟨hp.1, fun r => Follows.bind (hp.2 r) hf⟩

theorem Follows.handle {Q : σ → α → Prop} {R R' : σ → ε → Prop} :
    ∀ {p : Prog Op Res ε α} {f : ε → Prog Op Res ε α} {s : σ}, Follows A Q R s p →
      (∀ s e, R s e → Follows A Q R' s (f e)) → Follows A Q R' s (p.handle f)
  | pure _, _, _, hp, _ => hp
  | raise e, _, s, hp, hf => hf s e hp
  | op _ _, _, _, hp, hf => ⟨hp.1, fun r => Follows.handle (hp.2 r) hf⟩

theorem Follows.mono {Q Q' : σ → α → Prop} {R R' : σ → ε → Prop} (hQ : ∀ s a, Q s a → Q' s a)
    (hR : ∀ s e, R s e → R' s e) :
    ∀ {p : Prog Op Res ε α} {s : σ}, Follows A Q R s p → Follows A Q' R' s p
  | pure a, s, hp => hQ s a hp
  | raise e, s, hp => hR s e hp
  | op _ _, _, hp => ⟨hp.1, fun r => Follows.mono hQ hR (hp.2 r)⟩

theorem Follows.ite {Q : σ → α → Prop} {R : σ → ε → Prop} {c : Prop} [Decidable c]
    {p q : Prog Op Res ε α} {s : σ} (hp : c → Follows A Q R s p) (hq : ¬ c → Follows A Q R s q) :
    Follows A Q R s (if c then p else q) := by
  split_ifs with hc
  · exact hp hc
  · exact hq hc

theorem Follows.ofExcept {Q : σ → α → Prop} {R : σ → ε → Prop} {x : Except ε β}
    {k : β → Prog Op Res ε α} {s : σ} (herror : ∀ e, x = .error e → R s e)
    (hok : ∀ b, x = .ok b → Follows A Q R s (k b)) :
    Follows A Q R s ((Prog.ofExcept x).bind k) := by
  cases x with
  | error e => exact herror e rfl
  | ok b => exact hok b rfl

/-- The rule for `finally`: the second program goes on from wherever the first one has ended. -/
theorem Follows.andFinally {Q Q' : σ → α → Prop} {R R' : σ → ε → Prop} {p : Prog Op Res ε α}
    {q : Prog Op Res ε Unit} {s : σ} (hp : Follows A Q R s p)
    (hok : ∀ s a, Q s a → Follows A (fun s' _ => Q' s' a) R' s q)
    (herror : ∀ s e, R s e → Follows A (fun s' _ => R' s' e) R' s q) :
    Follows A Q' R' s (p.andFinally q) := by
  have hfirst : Follows A (fun s r => Except.casesOn r (R s) (Q s)) (fun _ _ => False) s
      ((p.bind fun a => pure (Except.ok a)).handle fun e => pure (Except.error e)) :=
    Follows.handle (Follows.bind hp fun s a ha => ha) fun s e he => he
  have hraise : Follows A (fun s r => Except.casesOn r (R s) (Q s)) R' s
      ((p.bind fun a => pure (Except.ok a)).handle fun e => pure (Except.error e)) :=
    Follows.mono (fun _ _ h => h) (fun _ _ h => h.elim) hfirst
  refine hraise.bind fun s r hr => ?_
  cases r with
  | ok a => exact (hok s a hr).bind fun s' _ hs' => hs'
  | error e => exact (herror s e hr).bind fun s' _ hs' => hs'

/-- A protocol that allows an operation in one state only. -/
def only (S : Op → Prop) : Protocol Op Res Unit := ⟨fun _ o => S o, fun _ _ _ => ()⟩

/-- All operations that the program can perform are in `S`. -/
def Uses (S : Op → Prop) (p : Prog Op Res ε α) : Prop :=
  Follows (only S) (fun _ _ => True) (fun _ _ => True) () p

theorem Uses.op {S : Op → Prop} {o : Op} {k : Res o → Prog Op Res ε α} (ho : S o)
    (hk : ∀ r, Uses S (k r)) : Uses S (.op o k) :=
  ⟨ho, hk⟩

theorem Uses.bind {S : Op → Prop} {p : Prog Op Res ε α} {f : α → Prog Op Res ε β} (hp : Uses S p)
    (hf : ∀ a, Uses S (f a)) : Uses S (p.bind f) :=
  Follows.bind hp fun _ a _ => hf a

theorem Uses.handle {S : Op → Prop} {p : Prog Op Res ε α} {f : ε → Prog Op Res ε α} (hp : Uses S p)
    (hf : ∀ e, Uses S (f e)) : Uses S (p.handle f) :=
  Follows.handle hp fun _ e _ => hf e

theorem Uses.ite {S : Op → Prop} {c : Prop} [Decidable c] {p q : Prog Op Res ε α} (hp : Uses S p)
    (hq : Uses S q) : Uses S (if c then p else q) :=
  Follows.ite (fun _ => hp) fun _ => hq

theorem Uses.ofExcept {S : Op → Prop} {x : Except ε β} {k : β → Prog Op Res ε α}
    (hk : ∀ b, Uses S (k b)) : Uses S ((Prog.ofExcept x).bind k) :=
  Follows.ofExcept (fun _ _ => trivial) fun b _ => hk b

/-- A program whose operations leave a state as it is stays in that state. -/
theorem Uses.follows {S : Op → Prop} {Q : σ → α → Prop} {R : σ → ε → Prop} {s : σ}
    (hS : ∀ o, S o → A.allow s o ∧ ∀ r, A.next s o r = s) (hQ : ∀ a, Q s a) (hR : ∀ e, R s e) :
    ∀ {p : Prog Op Res ε α}, Uses S p → Follows A Q R s p
  | pure a, _ => hQ a
  | raise e, _ => hR e
  | .op o k, h => by
    obtain ⟨hallow, hnext⟩ := hS o h.1
    refine ⟨hallow, fun r => ?_⟩
    rw [hnext r]
    exact Uses.follows hS hQ hR (h.2 r)

end follows

end Prog

/-! ### The processes of a machine -/

variable {Db Write Lock Stmt Pick Block Ext ε Ans Start World : Type}
  {SRes : Stmt → Type} {BRes : Block → Type} {ERes : Ext → Type}

/-- The protocols of the processes: the role a process was started in, the protocol of each role,
and what a process may return and raise in the end. -/
structure Discipline
    (M : Machine Db Write Lock Stmt Pick Block Ext ε Ans Start World SRes BRes ERes)
    (κ σ : Type) where
  role : World → Start → Option κ
  protocol : κ → Protocol (Call Block Ext) (Call.Res BRes ERes ε) σ
  first : σ
  Returns : κ → σ → Ans → Prop
  Raises : κ → σ → ε → Prop

namespace Machine

variable {M : Machine Db Write Lock Stmt Pick Block Ext ε Ans Start World SRes BRes ERes}
  {G : Rely Db Lock} {K : Contract Db Write Block ε BRes} {κ σ : Type}

variable (A : Discipline M κ σ)

/-- Every process starts by its protocol, and no role is lost. -/
structure Lawful : Prop where
  start : ∀ {w x p}, M.start w x = some p → ∃ i, A.role w x = some i ∧
    p.Follows (A.protocol i) (A.Returns i) (A.Raises i) A.first
  ext : ∀ {pid pick w e w' x i} {r : ERes e}, M.ext pid pick w e = some (r, w') →
    A.role w x = some i → A.role w' x = some i
  finish : ∀ y out {w x i}, A.role w x = some i → A.role (M.finish y out w) x = some i

/-- A process is where its protocol is. -/
def Agrees (i : κ) (s : σ) : Status Write Lock Stmt Block Ext ε Ans SRes BRes ERes → Prop
  | .run p => p.Follows (A.protocol i) (A.Returns i) (A.Raises i) s
  | .inTxn b _ k => Prog.Follows (A.protocol i) (A.Returns i) (A.Raises i) s (.op (.txn b) k)
  | .done (.ok a) => A.Returns i s a
  | .done (.error e) => A.Raises i s e
  | .killed => True

/-- The history `g` has the protocol state of every process. -/
def Followed (s : State M) (g : ℕ → σ) : Prop :=
  ∀ pid x st, s.procs[pid]? = some ⟨x, st⟩ → ∃ i, A.role s.world x = some i ∧ Agrees A i (g pid) st

/-- A step between transactions and what it does to the history. -/
inductive Guided (G : Rely Db Lock) (K : Contract Db Write Block ε BRes) (s : State M) (g : ℕ → σ) :
    Event Block Ext Start → State M → (ℕ → σ) → Prop
  | start {x p} : M.start s.world x = some p →
      Guided G K s g (.start x) { s with procs := s.procs ++ [⟨x, .run p⟩] }
        (Function.update g s.procs.length A.first)
  | commit {pid x b k now ws i} {r : BRes b} :
      s.procs[pid]? = some ⟨x, .run (.op (.txn b) k)⟩ → A.role s.world x = some i →
      (A.protocol i).allow (g pid) (.txn b) → now ≤ s.clock → G.Inv s.db → K.Pre b s.db →
      K.Post b now s.db ws r →
      Guided G K s g (.commit pid b)
        { s with
          db := M.applyAll s.db ws
          procs := s.procs.set pid ⟨x, .run (k (.ok r : Except ε (BRes b)))⟩ }
        (Function.update g pid ((A.protocol i).next (g pid) (.txn b) (.ok r : Except ε (BRes b))))
  | rollback {pid x b k D₀ e i} :
      s.procs[pid]? = some ⟨x, .run (.op (.txn b) k)⟩ → A.role s.world x = some i →
      (A.protocol i).allow (g pid) (.txn b) → G.Le D₀ s.db → G.Inv D₀ → K.Pre b D₀ →
      K.Fail b D₀ e →
      Guided G K s g (.rollback pid b)
        { s with procs := s.procs.set pid ⟨x, .run (k (.error e : Except ε (BRes b)))⟩ }
        (Function.update g pid
          ((A.protocol i).next (g pid) (.txn b) (.error e : Except ε (BRes b))))
  | ext {pid pick x e k w i} {r : ERes e} :
      s.procs[pid]? = some ⟨x, .run (.op (.ext e) k)⟩ → A.role s.world x = some i →
      (A.protocol i).allow (g pid) (.ext e) → M.ext pid pick s.world e = some (r, w) →
      Guided G K s g (.ext pid e)
        { s with world := w, procs := s.procs.set pid ⟨x, .run (k r)⟩ }
        (Function.update g pid ((A.protocol i).next (g pid) (.ext e) r))
  | finishOk {pid x a i} : s.procs[pid]? = some ⟨x, .run (.pure a)⟩ → A.role s.world x = some i →
      A.Returns i (g pid) a →
      Guided G K s g (.finish pid)
        { s with
          world := M.finish x (.ok a) s.world
          procs := s.procs.set pid ⟨x, .done (.ok a)⟩ } g
  | finishError {pid x e i} : s.procs[pid]? = some ⟨x, .run (.raise e)⟩ →
      A.role s.world x = some i → A.Raises i (g pid) e →
      Guided G K s g (.finish pid)
        { s with
          world := M.finish x (.error e) s.world
          procs := s.procs.set pid ⟨x, .done (.error e)⟩ } g
  | kill {pid x st} : s.procs[pid]? = some ⟨x, st⟩ → st.live = true →
      Guided G K s g (.kill pid) { s with procs := s.procs.set pid ⟨x, .killed⟩ } g
  | tick {n} : Guided G K s g .tick { s with clock := s.clock + n } g

section

variable {A}

theorem Followed.empty {s : State M} {g : ℕ → σ} (h : s.procs = []) : Followed A s g := by
  intro pid x st hp
  simp [h] at hp

theorem Followed.set {s : State M} {g : ℕ → σ} (h : Followed A s g) {pid : ℕ} {x : Start}
    {st st' : Status Write Lock Stmt Block Ext ε Ans SRes BRes ERes} {c : σ} {db : Db} {w : World}
    (hp : s.procs[pid]? = some ⟨x, st⟩)
    (hw : ∀ y i, A.role s.world y = some i → A.role w y = some i)
    (hst : ∀ i, A.role s.world x = some i → Agrees A i (g pid) st → Agrees A i c st') :
    Followed A { s with db := db, world := w, procs := s.procs.set pid ⟨x, st'⟩ }
      (Function.update g pid c) := by
  intro j y st₁ hj
  rw [List.getElem?_set] at hj
  split_ifs at hj with hpid hlt
  · subst hpid
    obtain ⟨rfl, rfl⟩ := Proc.mk.inj (Option.some.inj hj)
    obtain ⟨i, hi, hagrees⟩ := h _ _ _ hp
    refine ⟨i, hw _ _ hi, ?_⟩
    rw [Function.update_self]
    exact hst i hi hagrees
  · obtain ⟨i, hi, hagrees⟩ := h _ _ _ hj
    refine ⟨i, hw _ _ hi, ?_⟩
    rwa [Function.update_of_ne (Ne.symm hpid)]

theorem Followed.setWorld {s : State M} {g : ℕ → σ} (h : Followed A s g) {pid : ℕ} {x : Start}
    {st st' : Status Write Lock Stmt Block Ext ε Ans SRes BRes ERes} {c : σ} {w : World}
    (hp : s.procs[pid]? = some ⟨x, st⟩)
    (hw : ∀ y i, A.role s.world y = some i → A.role w y = some i)
    (hst : ∀ i, A.role s.world x = some i → Agrees A i (g pid) st → Agrees A i c st') :
    Followed A { s with world := w, procs := s.procs.set pid ⟨x, st'⟩ }
      (Function.update g pid c) :=
  h.set hp hw hst

theorem Followed.stay {s : State M} {g : ℕ → σ} (h : Followed A s g) {pid : ℕ} {x : Start}
    {st st' : Status Write Lock Stmt Block Ext ε Ans SRes BRes ERes} {w : World}
    (hp : s.procs[pid]? = some ⟨x, st⟩)
    (hw : ∀ y i, A.role s.world y = some i → A.role w y = some i)
    (hst : ∀ i, A.role s.world x = some i → Agrees A i (g pid) st → Agrees A i (g pid) st') :
    Followed A { s with world := w, procs := s.procs.set pid ⟨x, st'⟩ } g := by
  have hset := h.setWorld hp hw hst
  rwa [Function.update_eq_self] at hset

theorem Followed.append (hA : Lawful A) {s : State M} {g : ℕ → σ} (h : Followed A s g) {x : Start}
    {p : Prog (Call Block Ext) (Call.Res BRes ERes ε) ε Ans} (hp : M.start s.world x = some p) :
    Followed A { s with procs := s.procs ++ [⟨x, .run p⟩] }
      (Function.update g s.procs.length A.first) := by
  intro j y st hj
  rw [List.getElem?_append] at hj
  split_ifs at hj with hlt
  · obtain ⟨i, hi, hagrees⟩ := h _ _ _ hj
    refine ⟨i, hi, ?_⟩
    rwa [Function.update_of_ne (Nat.ne_of_lt hlt)]
  · have hj' : j - s.procs.length = 0 := by
      have := (List.getElem?_eq_some_iff.mp hj).1
      simp only [List.length_singleton] at this
      omega
    rw [hj'] at hj
    obtain ⟨rfl, rfl⟩ := Proc.mk.inj (Option.some.inj hj)
    obtain rfl : j = s.procs.length := by omega
    obtain ⟨i, hi, hfollows⟩ := hA.start hp
    refine ⟨i, hi, ?_⟩
    rw [Function.update_self]
    exact hfollows

/-- **A step between transactions** is guided by the protocols. -/
theorem Followed.step (hA : Lawful A) {s s' : State M} {g : ℕ → σ} {ev : Event Block Ext Start}
    (h : Followed A s g) (hs : AStep M G K s ev s') :
    ∃ g', Guided A G K s g ev s' g' ∧ Followed A s' g' := by
  have hw : ∀ y i, A.role s.world y = some i → A.role s.world y = some i := fun _ _ hi => hi
  cases hs with
  | start hp => exact ⟨_, .start hp, h.append hA hp⟩
  | commit hp hnow hinv hpre hpost =>
    obtain ⟨i, hi, hallow, hnext⟩ := h _ _ _ hp
    refine ⟨_, .commit hp hi hallow hnow hinv hpre hpost, h.set hp hw fun j hj _ => ?_⟩
    obtain rfl := Option.some.inj (hi.symm.trans hj)
    exact hnext _
  | rollback hp hle hinv hpre hfail =>
    obtain ⟨i, hi, hallow, hnext⟩ := h _ _ _ hp
    refine ⟨_, .rollback hp hi hallow hle hinv hpre hfail,
      h.setWorld hp hw fun j hj _ => ?_⟩
    obtain rfl := Option.some.inj (hi.symm.trans hj)
    exact hnext _
  | ext hp hx =>
    obtain ⟨i, hi, hallow, hnext⟩ := h _ _ _ hp
    refine ⟨_, .ext hp hi hallow hx, h.setWorld hp (fun _ _ => hA.ext hx) fun j hj _ => ?_⟩
    obtain rfl := Option.some.inj (hi.symm.trans hj)
    exact hnext _
  | finishOk hp =>
    obtain ⟨i, hi, hret⟩ := h _ _ _ hp
    exact ⟨_, .finishOk hp hi hret, h.stay hp (fun _ _ => hA.finish _ _) fun _ _ hr => hr⟩
  | finishError hp =>
    obtain ⟨i, hi, hraise⟩ := h _ _ _ hp
    exact ⟨_, .finishError hp hi hraise, h.stay hp (fun _ _ => hA.finish _ _) fun _ _ hr => hr⟩
  | kill hp hlive => exact ⟨_, .kill hp hlive, h.stay hp hw fun _ _ _ => trivial⟩
  | tick => exact ⟨_, .tick, h⟩

variable [DecidableEq Lock]

/-- **Invariants with a history**, where the condition is one on the states and the actions of the
machine itself. -/
theorem ReachableBy.guidedBy (H : M.Fulfils G K) (hA : Lawful A)
    {C : State M → Action Start Pick → Prop} {J : State M → (ℕ → σ) → Prop} {s₀ s : State M}
    (h₀ : Good M G K s₀) (hprocs : s₀.procs = []) (hJ : J (erase M s₀) fun _ => A.first)
    (hstep : ∀ {s a s' g ev g'}, ReachableBy M C s₀ s → J (erase M s) g → Followed A (erase M s) g →
      C s a → M.step s a = some s' → event M s a = some ev →
      Guided A G K (erase M s) g ev (erase M s') g' → J (erase M s') g')
    (h : ReachableBy M C s₀ s) : ∃ g, Followed A (erase M s) g ∧ J (erase M s) g := by
  induction h with
  | refl => exact ⟨_, .empty (by simp [erase, hprocs]), hJ⟩
  | @step s s' a hr hc hs ih =>
    obtain ⟨g, hF, hg⟩ := ih
    have hsim := (good_step H (hr.good H h₀) hs).2
    simp only [Simulates] at hsim
    split at hsim
    · rw [hsim]
      exact ⟨g, hF, hg⟩
    · rename_i ev hev
      obtain ⟨g', hguided, hF'⟩ := hF.step hA hsim
      exact ⟨g', hF', hstep hr hg hF hc hs hev hguided⟩

/-- **Invariants with a history.** What holds at the start and is kept by every guided step that
meets the condition holds, with some history, in every state that is reached so. -/
theorem ReachableBy.guided (H : M.Fulfils G K) (hA : Lawful A)
    {C : State M → Event Block Ext Start → Prop} {J : State M → (ℕ → σ) → Prop} {s₀ s : State M}
    (h₀ : Good M G K s₀) (hprocs : s₀.procs = []) (hJ : J (erase M s₀) fun _ => A.first)
    (hstep : ∀ {s g ev s' g'}, J s g → Followed A s g → C s ev → Guided A G K s g ev s' g' →
      J s' g')
    (h : ReachableBy M (OnEvents M C) s₀ s) : ∃ g, Followed A (erase M s) g ∧ J (erase M s) g :=
  h.guidedBy H hA h₀ hprocs hJ fun _ hg hF hC _ hev hguided => hstep hg hF (hC _ hev) hguided

end

/-! ### Protocols of external actions -/

/-- The transactions leave the state of the protocol alone. -/
def Outward : Prop := ∀ i c b r, (A.protocol i).next c (.txn b) r = c

/-- What a step of the machine does to the history of a protocol of external actions. -/
inductive Advanced (s : State M) (g : ℕ → σ) (s' : State M) : Action Start Pick → (ℕ → σ) → Prop
  | start {x} : Advanced s g s' (.start x) (Function.update g s.procs.length A.first)
  | ext {pid pick x e k i} {r : ERes e} :
      s.procs[pid]? = some ⟨x, .run (.op (.ext e) k)⟩ → A.role s.world x = some i →
      (A.protocol i).allow (g pid) (.ext e) → M.ext pid pick s.world e = some (r, s'.world) →
      Advanced s g s' (.step pid pick)
        (Function.update g pid ((A.protocol i).next (g pid) (.ext e) r))
  | quiet {a} : (∀ x, a ≠ .start x) →
      (∀ pid pick x e k, a = .step pid pick →
        s.procs[pid]? ≠ some ⟨x, .run (.op (.ext e) k)⟩) → Advanced s g s' a g

variable {A}

theorem Followed.killed {s : State M} {g : ℕ → σ} (h : Followed A s g) {pid : ℕ} {x : Start}
    (hp : s.procs[pid]? = some ⟨x, .killed⟩) (c : σ) : Followed A s (Function.update g pid c) := by
  intro j y st hj
  obtain ⟨i, hi, hagrees⟩ := h _ _ _ hj
  by_cases hpid : j = pid
  · subst hpid
    obtain ⟨rfl, rfl⟩ := Proc.mk.inj (Option.some.inj (hp.symm.trans hj))
    exact ⟨i, hi, trivial⟩
  · exact ⟨i, hi, by rwa [Function.update_of_ne hpid]⟩

theorem Followed.own [DecidableEq Lock] (hA : Lawful A) (hout : Outward A) {s : State M} {g : ℕ → σ}
    (h : Followed A s g) {pid : ℕ} {pick : Pick} {x : Start} {db : Db} {w : World}
    {st st' : Status Write Lock Stmt Block Ext ε Ans SRes BRes ERes}
    (hp : s.procs[pid]? = some ⟨x, st⟩) (hs : advance M s pid pick x st = some (db, w, st')) :
    ∃ g', Advanced A s g { s with db := db, world := w, procs := s.procs.set pid ⟨x, st'⟩ }
      (.step pid pick) g' ∧
      Followed A { s with db := db, world := w, procs := s.procs.set pid ⟨x, st'⟩ } g' := by
  have hw : ∀ y i, A.role s.world y = some i → A.role s.world y = some i := fun _ _ hi => hi
  -- everything but an external action leaves the history as it is
  have hquiet : (∀ e k, st ≠ .run (.op (.ext e) k)) →
      (∀ y i, A.role s.world y = some i → A.role w y = some i) →
      (∀ i, A.role s.world x = some i → Agrees A i (g pid) st → Agrees A i (g pid) st') →
      ∃ g', Advanced A s g { s with db := db, world := w, procs := s.procs.set pid ⟨x, st'⟩ }
        (.step pid pick) g' ∧
        Followed A { s with db := db, world := w, procs := s.procs.set pid ⟨x, st'⟩ } g' := by
    intro hne hw hst
    refine ⟨g, .quiet (by simp) fun pid' pick' y e k ha hy => ?_, ?_⟩
    · obtain ⟨rfl, -⟩ := Action.step.inj ha
      exact hne e k (Proc.mk.inj (Option.some.inj (hp.symm.trans hy))).2
    · have hset : Followed A
          { s with db := db, world := w, procs := s.procs.set pid ⟨x, st'⟩ }
          (Function.update g pid (g pid)) := h.set hp hw hst
      rwa [Function.update_eq_self] at hset
  cases st with
  | run p =>
    cases p with
    | pure a | raise e =>
      simp only [advance, Option.some.injEq, Prod.mk.injEq] at hs
      obtain ⟨-, rfl, rfl⟩ := hs
      exact hquiet (by simp) (fun _ _ hi => hA.finish _ _ hi) fun _ _ hr => hr
    | op o k =>
      cases o with
      | txn b =>
        simp only [advance, Option.some.injEq, Prod.mk.injEq] at hs
        obtain ⟨-, rfl, rfl⟩ := hs
        exact hquiet (by simp) hw fun _ _ hr => hr
      | ext e =>
        simp only [advance] at hs
        split at hs
        · rename_i r w' hx
          simp only [Option.some.injEq, Prod.mk.injEq] at hs
          obtain ⟨-, rfl, rfl⟩ := hs
          obtain ⟨i, hi, hallow, hnext⟩ := h _ _ _ hp
          refine ⟨_, .ext hp hi hallow hx, h.set hp (fun _ _ => hA.ext hx) fun j hj _ => ?_⟩
          obtain rfl := Option.some.inj (hi.symm.trans hj)
          exact hnext _
        · simp at hs
  | inTxn b t k =>
    obtain ⟨rest, ws, ls, now⟩ := t
    have hnext : ∀ r i, Agrees A i (g pid) (.inTxn b ⟨rest, ws, ls, now⟩ k) →
        Agrees A i (g pid) (.run (k r)) := by
      intro r i hagrees
      have hk := hagrees.2 r
      rwa [hout i (g pid) b r] at hk
    cases rest with
    | pure r | raise e =>
      simp only [advance, Option.some.injEq, Prod.mk.injEq] at hs
      obtain ⟨-, rfl, rfl⟩ := hs
      exact hquiet (by simp) hw fun i _ => hnext _ i
    | op o kk =>
      simp only [advance] at hs
      split_ifs at hs
      split at hs
      · simp only [Option.some.injEq, Prod.mk.injEq] at hs
        obtain ⟨-, rfl, rfl⟩ := hs
        exact hquiet (by simp) hw fun _ _ hr => hr
      · simp at hs
  | done out | killed => simp [advance] at hs

/-- **A step of the machine** and the history. -/
theorem Followed.advance [DecidableEq Lock] (hA : Lawful A) (hout : Outward A) {s s' : State M}
    {g : ℕ → σ} {a : Action Start Pick} (h : Followed A s g) (hs : M.step s a = some s') :
    ∃ g', Advanced A s g s' a g' ∧ Followed A s' g' := by
  cases a with
  | start x =>
    simp only [Machine.step] at hs
    split at hs
    · rename_i p hp
      obtain rfl := Option.some.inj hs
      exact ⟨_, .start, h.append hA hp⟩
    · simp at hs
  | step pid pick =>
    simp only [Machine.step] at hs
    split at hs
    · rename_i p hp
      split at hs
      · rename_i db w st hadv
        obtain rfl := Option.some.inj hs
        exact h.own hA hout hp hadv
      · simp at hs
    · simp at hs
  | kill pid =>
    simp only [Machine.step] at hs
    split at hs
    · rename_i p hp
      split_ifs at hs
      obtain rfl := Option.some.inj hs
      exact ⟨g, .quiet (by simp) (fun _ _ _ _ _ ha => by cases ha),
        h.stay hp (fun _ _ hi => hi) fun _ _ _ => trivial⟩
    · simp at hs
  | tick n =>
    obtain rfl := Option.some.inj hs
    exact ⟨g, .quiet (by simp) (fun _ _ _ _ _ ha => by cases ha), h⟩

end Machine

end Payflow.Lib
