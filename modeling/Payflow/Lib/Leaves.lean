import Payflow.Lib.Local

/-! # What processes leave behind

What holds of the store when a process has ended, and ever after, in the runs that keep to some
terms: under which conditions transactions commit and roll back, and what external actions answer.
`Leaves` follows a program, its transactions statement by statement, while the store moves on
between any two of its steps; how it moves on is a relation that the commits within the terms keep
(`Terms.Moves`). -/

namespace Payflow.Lib

variable {Db Write Lock Stmt Pick Block Ext ε Ans Start World : Type}
  {SRes : Stmt → Type} {BRes : Block → Type} {ERes : Ext → Type}

/-- The terms of a run: on what store a transaction may commit and roll back, and what an external
action may answer. -/
structure Terms (Db Block : Type) {Ext : Type} (ERes : Ext → Type) where
  commit : Block → Db → Prop
  rollback : Block → Db → Prop
  answer : (e : Ext) → Db → ERes e → Prop

/-- Nothing is agreed on. -/
def Terms.any : Terms Db Block ERes := ⟨fun _ _ => True, fun _ _ => True, fun _ _ _ => True⟩

namespace Machine

variable (M : Machine Db Write Lock Stmt Pick Block Ext ε Ans Start World SRes BRes ERes)
  (G : Rely Db Lock) (K : Contract Db Write Block ε BRes) (T : Terms Db Block ERes)
  (R : Db → Db → Prop)

/-- The step keeps to the terms. -/
def OnTerms (s : State M) : Action Start Pick → Prop
  | .step pid pick =>
    match s.procs[pid]? with
    | some ⟨_, .inTxn b ⟨.pure _, _, _, _⟩ _⟩ => T.commit b s.db
    | some ⟨_, .inTxn b ⟨.raise _, _, _, _⟩ _⟩ => T.rollback b s.db
    | some ⟨_, .run (.op (.ext e) _)⟩ =>
      ∀ r w, M.ext pid pick s.world e = some (r, w) → T.answer e s.db r
    | _ => True
  | _ => True

/-- The same, where it is computed. -/
def termsCheck (commit rollback : Block → Db → Bool) (answer : Ext → Db → Pick → Bool)
    (s : State M) : Action Start Pick → Bool
  | .step pid pick =>
    match s.procs[pid]? with
    | some ⟨_, .inTxn b ⟨.pure _, _, _, _⟩ _⟩ => commit b s.db
    | some ⟨_, .inTxn b ⟨.raise _, _, _, _⟩ _⟩ => rollback b s.db
    | some ⟨_, .run (.op (.ext e) _)⟩ => answer e s.db pick
    | _ => true
  | _ => true

variable {M T} in
theorem onTerms_of_check {commit rollback : Block → Db → Bool} {answer : Ext → Db → Pick → Bool}
    (hcommit : ∀ b D, commit b D = true → T.commit b D)
    (hrollback : ∀ b D, rollback b D = true → T.rollback b D)
    (hanswer : ∀ {e D pid pick w w'} {r : ERes e}, answer e D pick = true →
      M.ext pid pick w e = some (r, w') → T.answer e D r) (s : State M) (a : Action Start Pick)
    (h : termsCheck M commit rollback answer s a = true) : OnTerms M T s a := by
  cases a with
  | step pid pick =>
    simp only [OnTerms]
    simp only [termsCheck] at h
    split
    · rename_i hp
      rw [hp] at h
      exact hcommit _ _ h
    · rename_i hp
      rw [hp] at h
      exact hrollback _ _ h
    · rename_i hp
      rw [hp] at h
      exact fun r w hx => hanswer h hx
    · trivial
  | _ => trivial

/-- The rest of a transaction comes to its end as `Q` says of the store its last statement has seen,
while the store moves on between the statements. -/
def TxLeaves (now : ℕ) {α : Type} (Q : Except ε α → List Write → Db → Prop) :
    Prog Stmt SRes ε α → List Write → Db → Prop
  | .pure a, ws, D => Q (.ok a) ws D
  | .raise e, ws, D => Q (.error e) ws D
  | .op st k, ws, D => ∀ D', R D D' → G.Inv D' → ∀ pick r ws',
      M.exec ⟨now, pick⟩ (M.applyAll D' ws) st = some (r, ws') →
        TxLeaves now Q (k r) (ws ++ ws') D'

/-- The end of a transaction, within the terms, leads to what `L` says. -/
def TxEnds (b : Block) (now : ℕ) (L : Except ε (BRes b) → Db → Prop) :
    Except ε (BRes b) → List Write → Db → Prop
  | .ok a, ws, D => ∀ D', R D D' → G.Inv D' → K.Pre b D' → K.Post b now D' ws a →
      T.commit b D' → L (.ok a) (M.applyAll D' ws)
  | .error e, _, D => ∀ D', R D D' → G.Inv D' → (∃ D₀, K.Fail b D₀ e) → T.rollback b D' →
      L (.error e) D'

/-- The program, called when the store is `D`, ends only as `Q` says. -/
def Leaves {α : Type} (Q : Except ε α → Db → Prop) :
    Prog (Call Block Ext) (Call.Res BRes ERes ε) ε α → Db → Prop
  | .pure a, D => Q (.ok a) D
  | .raise e, D => Q (.error e) D
  | .op (.txn b) k, D => ∀ D', R D D' → G.Inv D' → ∀ now, TxLeaves M G R now
      (TxEnds M G K T R b now fun res => Leaves Q (k (res : Except ε (BRes b)))) (M.body b) [] D'
  | .op (.ext e) k, D => ∀ D', R D D' → G.Inv D' → ∀ r, T.answer e D' r → Leaves Q (k r) D'

/-- What is known of a process that ends only as `Q` says. -/
def StatusLeaves (Q : Except ε Ans → Db → Prop) (D : Db) :
    Status Write Lock Stmt Block Ext ε Ans SRes BRes ERes → Prop
  | .run p => Leaves M G K T R Q p D
  | .inTxn b t k => TxLeaves M G R t.now
      (TxEnds M G K T R b t.now fun res => Leaves M G K T R Q (k (res : Except ε (BRes b))))
      t.rest t.writes D
  | .done out => Q out D
  | .killed => True

/-- How the store moves on: what is committed within the terms is such a move. -/
structure Moves : Prop where
  refl : ∀ D, R D D
  trans : ∀ {D D' D''}, R D D' → R D' D'' → R D D''
  commit : ∀ {b now D ws} {r : BRes b}, G.Inv D → K.Pre b D → K.Post b now D ws r →
    T.commit b D → R D (M.applyAll D ws)

variable {M G K T R}

theorem Moves.any : Moves M G K Terms.any fun _ _ => True where
  refl _ := trivial
  trans _ _ := trivial
  commit _ _ _ _ := trivial

theorem onTerms_any (s : State M) (a : Action Start Pick) : OnTerms M Terms.any s a := by
  cases a with
  | step pid pick =>
    unfold OnTerms
    simp only
    split
    · trivial
    · trivial
    · exact fun _ _ _ => trivial
    · trivial
  | _ => trivial

section rules

variable {α β : Type} {D D' : Db}

/-- What is asked of the store stays true when it moves on. -/
def Lasting (R : Db → Db → Prop) {α : Type} (Q : Except ε α → Db → Prop) : Prop :=
  ∀ out D D', R D D' → Q out D → Q out D'

theorem TxLeaves.imp (hR : Moves M G K T R) {now : ℕ} {Q Q' : Except ε α → List Write → Db → Prop} :
    ∀ {p : Prog Stmt SRes ε α} {ws : List Write} {D : Db}, TxLeaves M G R now Q p ws D →
      (∀ res ws D', R D D' → Q res ws D' → Q' res ws D') → TxLeaves M G R now Q' p ws D
  | .pure _, _, D, h, hQ => hQ _ _ D (hR.refl D) h
  | .raise _, _, D, h, hQ => hQ _ _ D (hR.refl D) h
  | .op _ _, _, _, h, hQ => fun D' hD hi pick r ws' hx =>
    TxLeaves.imp hR (h D' hD hi pick r ws' hx) fun res ws D'' hD' => hQ res ws D'' (hR.trans hD hD')

theorem TxLeaves.stmt {now : ℕ} {Q : Except ε α → List Write → Db → Prop} {st : Stmt}
    {k : SRes st → Prog Stmt SRes ε α} {ws : List Write}
    (h : ∀ D' r ws', R D D' → TxLeaves M G R now Q (k r) ws' D') :
    TxLeaves M G R now Q (.op st k) ws D :=
  fun D' hD _ _ r _ _ => h D' r _ hD

theorem TxLeaves.ite {now : ℕ} {Q : Except ε α → List Write → Db → Prop} {c : Prop} [Decidable c]
    {p q : Prog Stmt SRes ε α} {ws : List Write} (hp : c → TxLeaves M G R now Q p ws D)
    (hq : ¬ c → TxLeaves M G R now Q q ws D) :
    TxLeaves M G R now Q (if c then p else q) ws D := by
  split_ifs with hc
  · exact hp hc
  · exact hq hc

theorem TxLeaves.ofExcept {now : ℕ} {Q : Except ε α → List Write → Db → Prop} {x : Except ε β}
    {k : β → Prog Stmt SRes ε α} {ws : List Write} (herror : ∀ e, x = .error e → Q (.error e) ws D)
    (hok : ∀ b, x = .ok b → TxLeaves M G R now Q (k b) ws D) :
    TxLeaves M G R now Q ((Prog.ofExcept x).bind k) ws D := by
  cases x with
  | error e => exact herror e rfl
  | ok b => exact hok b rfl

theorem TxEnds.mono (hR : Moves M G K T R) {b : Block} {now : ℕ} {L : Except ε (BRes b) → Db → Prop}
    {res : Except ε (BRes b)} {ws : List Write} (h : TxEnds M G K T R b now L res ws D)
    (hD : R D D') : TxEnds M G K T R b now L res ws D' := by
  cases res with
  | ok a => exact fun D'' hD' => h D'' (hR.trans hD hD')
  | error e => exact fun D'' hD' => h D'' (hR.trans hD hD')

theorem TxEnds.imp {b : Block} {now : ℕ} {L L' : Except ε (BRes b) → Db → Prop}
    {res : Except ε (BRes b)} {ws : List Write} (h : TxEnds M G K T R b now L res ws D)
    (hL : ∀ res D, L res D → L' res D) : TxEnds M G K T R b now L' res ws D := by
  cases res with
  | ok a => exact fun D' hD hi hpre hpost hT => hL _ _ (h D' hD hi hpre hpost hT)
  | error e => exact fun D' hD hi hfail hT => hL _ _ (h D' hD hi hfail hT)

theorem Leaves.mono (hR : Moves M G K T R) {Q : Except ε α → Db → Prop} (hQ : Lasting R Q) :
    ∀ {p : Prog (Call Block Ext) (Call.Res BRes ERes ε) ε α} {D D' : Db},
      Leaves M G K T R Q p D → R D D' → Leaves M G K T R Q p D'
  | .pure _, D, D', h, hD => hQ _ D D' hD h
  | .raise _, D, D', h, hD => hQ _ D D' hD h
  | .op (.txn _) _, _, _, h, hD => fun D'' hD' => h D'' (hR.trans hD hD')
  | .op (.ext _) _, _, _, h, hD => fun D'' hD' => h D'' (hR.trans hD hD')

/-- **The rule for a transaction**: `E` is what its statements have seen when it ends, the contract
says what it commits. -/
theorem Leaves.txn (hR : Moves M G K T R) {Q : Except ε α → Db → Prop} {b : Block}
    {k : Except ε (BRes b) → Prog (Call Block Ext) (Call.Res BRes ERes ε) ε α}
    (E : Except ε (BRes b) → Db → Prop)
    (hbody : ∀ D' now, R D D' → TxLeaves M G R now (fun res _ => E res) (M.body b) [] D')
    (hok : ∀ D₁ D₂ now ws a, R D D₁ → E (.ok a) D₁ → R D₁ D₂ → G.Inv D₂ → K.Pre b D₂ →
      K.Post b now D₂ ws a → T.commit b D₂ → Leaves M G K T R Q (k (.ok a)) (M.applyAll D₂ ws))
    (herror : ∀ D₁ D₂ e, R D D₁ → E (.error e) D₁ → R D₁ D₂ → G.Inv D₂ → (∃ D₀, K.Fail b D₀ e) →
      T.rollback b D₂ → Leaves M G K T R Q (k (.error e)) D₂) :
    Leaves M G K T R Q (.op (.txn b) k) D := by
  intro D' hD hi now
  refine (hbody D' now hD).imp hR fun res ws D₁ hD₁ hE => ?_
  cases res with
  | ok a => exact fun D₂ hD₂ => hok D₁ D₂ now ws a (hR.trans hD hD₁) hE hD₂
  | error e => exact fun D₂ hD₂ => herror D₁ D₂ e (hR.trans hD hD₁) hE hD₂

theorem Leaves.bind (hR : Moves M G K T R) {Q : Except ε α → Db → Prop}
    {Q' : Except ε β → Db → Prop}
    {f : α → Prog (Call Block Ext) (Call.Res BRes ERes ε) ε β}
    (hok : ∀ a D, Q (.ok a) D → Leaves M G K T R Q' (f a) D)
    (herror : ∀ e D, Q (.error e) D → Q' (.error e) D) :
    ∀ {p : Prog (Call Block Ext) (Call.Res BRes ERes ε) ε α} {D : Db}, Leaves M G K T R Q p D →
      Leaves M G K T R Q' (p.bind f) D
  | .pure a, D, h => hok a D h
  | .raise e, D, h => herror e D h
  | .op (.txn _) _, _, h => fun D' hD hi now => (h D' hD hi now).imp hR fun _ _ _ _ hres =>
      hres.imp fun _ _ hrest => Leaves.bind hR hok herror hrest
  | .op (.ext _) _, _, h => fun D' hD hi r hr => Leaves.bind hR hok herror (h D' hD hi r hr)

theorem Leaves.handle (hR : Moves M G K T R) {Q Q' : Except ε α → Db → Prop}
    {f : ε → Prog (Call Block Ext) (Call.Res BRes ERes ε) ε α}
    (hok : ∀ a D, Q (.ok a) D → Q' (.ok a) D)
    (herror : ∀ e D, Q (.error e) D → Leaves M G K T R Q' (f e) D) :
    ∀ {p : Prog (Call Block Ext) (Call.Res BRes ERes ε) ε α} {D : Db}, Leaves M G K T R Q p D →
      Leaves M G K T R Q' (p.handle f) D
  | .pure a, D, h => hok a D h
  | .raise e, D, h => herror e D h
  | .op (.txn _) _, _, h => fun D' hD hi now => (h D' hD hi now).imp hR fun _ _ _ _ hres =>
      hres.imp fun _ _ hrest => Leaves.handle hR hok herror hrest
  | .op (.ext _) _, _, h => fun D' hD hi r hr => Leaves.handle hR hok herror (h D' hD hi r hr)

theorem Leaves.ite {Q : Except ε α → Db → Prop} {c : Prop} [Decidable c]
    {p q : Prog (Call Block Ext) (Call.Res BRes ERes ε) ε α} (hp : c → Leaves M G K T R Q p D)
    (hq : ¬ c → Leaves M G K T R Q q D) : Leaves M G K T R Q (if c then p else q) D := by
  split_ifs with hc
  · exact hp hc
  · exact hq hc

theorem Leaves.ofExcept {Q : Except ε α → Db → Prop} {x : Except ε β}
    {k : β → Prog (Call Block Ext) (Call.Res BRes ERes ε) ε α}
    (herror : ∀ e, x = .error e → Q (.error e) D)
    (hok : ∀ b, x = .ok b → Leaves M G K T R Q (k b) D) :
    Leaves M G K T R Q ((Prog.ofExcept x).bind k) D := by
  cases x with
  | error e => exact herror e rfl
  | ok b => exact hok b rfl

/-- What stays true when the store moves on is true at every end of a transaction. -/
theorem TxLeaves.stays (hR : Moves M G K T R) {F : Db → Prop} (hF : ∀ D D', R D D' → F D → F D')
    {now : ℕ} {Q : Except ε α → List Write → Db → Prop} (hQ : ∀ res ws D, F D → Q res ws D) :
    ∀ {p : Prog Stmt SRes ε α} {ws : List Write} {D : Db}, F D → TxLeaves M G R now Q p ws D
  | .pure _, _, _, h => hQ _ _ _ h
  | .raise _, _, _, h => hQ _ _ _ h
  | .op _ _, _, D, h => fun D' hD _ _ _ _ _ => TxLeaves.stays hR hF hQ (hF D D' hD h)

theorem TxEnds.stays (hR : Moves M G K T R) {F : Db → Prop} (hF : ∀ D D', R D D' → F D → F D')
    {b : Block} {now : ℕ} {L : Except ε (BRes b) → Db → Prop} (hL : ∀ res D, F D → L res D)
    {res : Except ε (BRes b)} {ws : List Write} (h : F D) : TxEnds M G K T R b now L res ws D := by
  cases res with
  | ok a =>
    exact fun D' hD hi hpre hpost hT => hL _ _ (hF D' _ (hR.commit hi hpre hpost hT) (hF D D' hD h))
  | error e => exact fun D' hD _ _ _ => hL _ _ (hF D D' hD h)

theorem Leaves.stays (hR : Moves M G K T R) {F : Db → Prop} (hF : ∀ D D', R D D' → F D → F D')
    {Q : Except ε α → Db → Prop} (hQ : ∀ out D, F D → Q out D) :
    ∀ {p : Prog (Call Block Ext) (Call.Res BRes ERes ε) ε α} {D : Db}, F D → Leaves M G K T R Q p D
  | .pure _, _, h => hQ _ _ h
  | .raise _, _, h => hQ _ _ h
  | .op (.txn _) _, D, h => fun D' hD _ _ => TxLeaves.stays hR hF (fun _ _ _ h₁ =>
      TxEnds.stays hR hF (fun _ _ h₂ => Leaves.stays hR hF hQ h₂) h₁) (hF D D' hD h)
  | .op (.ext _) _, D, h => fun D' hD _ _ _ => Leaves.stays hR hF hQ (hF D D' hD h)

theorem StatusLeaves.mono (hR : Moves M G K T R) {Q : Except ε Ans → Db → Prop} (hQ : Lasting R Q)
    {st : Status Write Lock Stmt Block Ext ε Ans SRes BRes ERes}
    (h : StatusLeaves M G K T R Q D st) (hD : R D D') : StatusLeaves M G K T R Q D' st := by
  cases st with
  | run p => exact Leaves.mono hR hQ h hD
  | inTxn b t k =>
    obtain ⟨rest, ws, ls, now⟩ := t
    cases rest with
    | pure a =>
      have hend : TxEnds M G K T R b now (fun res => Leaves M G K T R Q (k res)) (.ok a) ws D := h
      exact hend.mono hR hD
    | raise e =>
      have hend : TxEnds M G K T R b now (fun res =>
        Leaves M G K T R Q (k res)) (.error e) ws D := h
      exact hend.mono hR hD
    | op st kk => exact fun D'' hD' => h D'' (hR.trans hD hD')
  | done out => exact hQ out D D' hD h
  | killed => trivial

end rules

/-! ### The runs -/

variable [DecidableEq Lock]

theorem step_moves (hR : Moves M G K T R) {s s' : State M}
    {a : Action Start Pick} (h : Good M G K s) (hT : OnTerms M T s a) (hs : M.step s a = some s') :
    R s.db s'.db := by
  rcases step_commit h hs with hdb | ⟨pid, pick, b, now, ws, r, rfl, hc, hpre, hpost, hdb⟩
  · rw [hdb]
    exact hR.refl _
  · obtain ⟨x, ls, k, hp⟩ := hc
    simp only [OnTerms, hp] at hT
    rw [hdb]
    exact hR.commit h.inv hpre hpost hT

/-- **An own step** of a process within the terms. -/
theorem StatusLeaves.advance (H : M.Fulfils G K) (hR : Moves M G K T R)
    {Q : Except ε Ans → Db → Prop} {s : State M} {pid : ℕ} {pick : Pick} {x : Start}
    {st st' : Status Write Lock Stmt Block Ext ε Ans SRes BRes ERes} {db : Db} {w : World}
    (h : Good M G K s) (hp : s.procs[pid]? = some ⟨x, st⟩) (hT : OnTerms M T s (.step pid pick))
    (hst : StatusLeaves M G K T R Q s.db st)
    (hadv : advance M s pid pick x st = some (db, w, st')) :
    StatusLeaves M G K T R Q db st' := by
  have hok : StatusOk M G K s.db s.clock st := h.status _ (List.mem_of_getElem? hp)
  cases st with
  | run p =>
    cases p with
    | pure a | raise e =>
      simp only [Machine.advance, Option.some.injEq, Prod.mk.injEq] at hadv
      obtain ⟨rfl, -, rfl⟩ := hadv
      exact hst
    | op o k =>
      cases o with
      | txn b =>
        simp only [Machine.advance, Option.some.injEq, Prod.mk.injEq] at hadv
        obtain ⟨rfl, -, rfl⟩ := hadv
        exact hst s.db (hR.refl _) h.inv s.clock
      | ext e =>
        simp only [Machine.advance] at hadv
        split at hadv
        · rename_i r w' hx
          simp only [Option.some.injEq, Prod.mk.injEq] at hadv
          obtain ⟨rfl, -, rfl⟩ := hadv
          simp only [OnTerms, hp] at hT
          exact hst s.db (hR.refl _) h.inv r (hT r w' hx)
        · simp at hadv
  | inTxn b t k =>
    obtain ⟨rest, ws, ls, now⟩ := t
    cases rest with
    | pure a =>
      simp only [Machine.advance, Option.some.injEq, Prod.mk.injEq] at hadv
      obtain ⟨rfl, -, rfl⟩ := hadv
      simp only [OnTerms, hp] at hT
      obtain ⟨hpre, hpost, -⟩ := OpenOk.commit hok
      exact hst s.db (hR.refl _) h.inv hpre hpost hT
    | raise e =>
      simp only [Machine.advance, Option.some.injEq, Prod.mk.injEq] at hadv
      obtain ⟨rfl, -, rfl⟩ := hadv
      simp only [OnTerms, hp] at hT
      obtain ⟨⟨D₀, -, -, -, hfail⟩, -⟩ := OpenOk.rollback H hok
      exact hst s.db (hR.refl _) h.inv ⟨D₀, hfail⟩ hT
    | op o kk =>
      obtain ⟨r, ws', hx, rfl, rfl⟩ := advance_stmt hadv
      exact hst s.db (hR.refl _) h.inv pick r ws' hx
  | done out => simp [Machine.advance] at hadv
  | killed => simp [Machine.advance] at hadv

/-- **What every process leaves behind**, in every run within the terms: a process has a role, which
it keeps, and if its program ends only as its role asks, it has ended so. -/
theorem ReachableBy.leaves {ι : Type} (H : M.Fulfils G K) (hR : Moves M G K T R)
    {role : World → Start → Option ι} {Q : ι → Except ε Ans → Db → Prop} (hQ : ∀ i, Lasting R (Q i))
    (hext : ∀ {pid pick w e w' x i} {r : ERes e}, M.ext pid pick w e = some (r, w') →
      role w x = some i → role w' x = some i)
    (hfinish : ∀ {y out w x i}, role w x = some i → role (M.finish y out w) x = some i)
    {s₀ s : State M}
    (h₀ : Good M G K s₀) (hprocs : s₀.procs = [])
    (hstart : ∀ {s x p}, ReachableBy M (OnTerms M T) s₀ s → M.start s.world x = some p →
      ∃ i, role s.world x = some i ∧ Leaves M G K T R (Q i) p s.db)
    (h : ReachableBy M (OnTerms M T) s₀ s) : ∀ {pid : ℕ} {x st}, s.procs[pid]? = some ⟨x, st⟩ →
      ∃ i, role s.world x = some i ∧ StatusLeaves M G K T R (Q i) s.db st := by
  induction h with
  | refl => simp [hprocs]
  | @step s s' a hr hT hs ih =>
    intro pid x st hp
    have hgood := hr.good H h₀
    have hD := step_moves hR hgood hT hs
    have hrole : ∀ {x i}, role s.world x = some i → role s'.world x = some i := by
      intro x i hi
      rcases step_world hs with hw | ⟨y, out, hw⟩ | ⟨q, pick, e, r, hx⟩
      · rwa [hw]
      · rw [hw]
        exact hfinish hi
      · exact hext hx hi
    cases step_process hs hp with
    | own ha hq hadv =>
      subst ha
      obtain ⟨i, hi, hst⟩ := ih hq
      exact ⟨i, hrole hi, hst.advance H hR hgood hq hT hadv⟩
    | other hq =>
      obtain ⟨i, hi, hst⟩ := ih hq
      exact ⟨i, hrole hi, hst.mono hR (hQ i) hD⟩
    | killed _ hq =>
      obtain ⟨i, hi, -⟩ := ih hq
      exact ⟨i, hrole hi, trivial⟩
    | started _ _ hstart' =>
      obtain ⟨i, hi, hleaves⟩ := hstart hr hstart'
      exact ⟨i, hrole hi, Leaves.mono hR (hQ i) hleaves hD⟩

/-! ### Whatever the store does -/

variable (M G K) in
/-- The program ends only as `Q` says, whatever its statements and external actions answer. -/
abbrev EndsAs {α : Type} (Q : Except ε α → Prop)
    (p : Prog (Call Block Ext) (Call.Res BRes ERes ε) ε α) : Prop :=
  ∀ D, Leaves M G K Terms.any (fun _ _ => True) (fun out _ => Q out) p D

/-- **Every process** has ended as its program does. -/
theorem Reachable.endsAs (H : M.Fulfils G K) {Q : Start → Except ε Ans → Prop} {s₀ s : State M}
    (h₀ : Good M G K s₀) (hprocs : s₀.procs = [])
    (hstart : ∀ {w x p}, M.start w x = some p → EndsAs M G K (Q x) p) (h : Reachable M s₀ s)
    {pid : ℕ} {x : Start} {out : Except ε Ans} (hp : s.procs[pid]? = some ⟨x, .done out⟩) :
    Q x out := by
  have hT : ReachableBy M (OnTerms M Terms.any) s₀ s := h.imp fun s a _ => onTerms_any s a
  let role : World → Start → Option Start := fun _ x => some x
  have hends : ∀ {pid : ℕ} {x st}, s.procs[pid]? = some ⟨x, st⟩ → ∃ y, role s.world x = some y ∧
      StatusLeaves M G K Terms.any (fun _ _ => True) (fun out _ => Q y out) s.db st := by
    refine hT.leaves H Moves.any ?_ ?_ ?_ h₀ hprocs fun _ hx => ⟨_, rfl, hstart hx _⟩
    · exact fun _ _ _ _ _ h => h
    · exact fun _ h => h
    · exact fun h => h
  obtain ⟨y, hy, hend⟩ := hends hp
  obtain rfl := Option.some.inj hy
  exact hend

end Machine

end Payflow.Lib
