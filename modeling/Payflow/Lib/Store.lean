import Payflow.Lib.Prog
import Mathlib.Tactic.SplitIfs

/-! # Transactions of a store at the level READ COMMITTED

A transaction is a program of statements. A statement takes the locks it needs, waiting while
another transaction holds one of them, sees the data committed before it began together with the
transaction's own writes, and adds its writes to them. The locks are held, and the writes kept back,
until the transaction ends.

`Meets` is what a transaction guarantees when other transactions commit between its
statements. Those may change the store by `Le`, and no other transaction changes what a lock
it does not hold protects (`Same`). -/

namespace Payflow.Lib

/-- What a statement gets from outside the store: the time its transaction started, and a value the
environment chose for it. -/
structure Env (Pick : Type) where
  now : ℕ
  pick : Pick

/-- The statements of a store: the locks each one waits for, its answer and its writes. `exec` is
`none` where the environment's choice does not fit the statement. -/
structure Store (Db Write Lock Stmt Pick : Type) (SRes : Stmt → Type) where
  apply : Db → Write → Db
  locks : Env Pick → Db → Stmt → List Lock
  exec : Env Pick → Db → (s : Stmt) → Option (SRes s × List Write)

/-- An open transaction: the statements still to come, the writes made and the locks taken so far,
and the time it started. -/
structure Txn (Write Lock Stmt : Type) (SRes : Stmt → Type) (ε α : Type) where
  rest : Prog Stmt SRes ε α
  writes : List Write
  locks : List Lock
  now : ℕ

variable {Db Write Lock Stmt Pick : Type} {SRes : Stmt → Type} {ε α : Type}

/-- The store after the given writes. -/
def Store.applyAll (S : Store Db Write Lock Stmt Pick SRes) (D : Db) (ws : List Write) : Db :=
  ws.foldl S.apply D

section

variable (S : Store Db Write Lock Stmt Pick SRes)

@[simp] theorem Store.applyAll_nil (D : Db) : S.applyAll D [] = D := rfl

@[simp] theorem Store.applyAll_cons (D : Db) (w : Write) (ws : List Write) :
    S.applyAll D (w :: ws) = S.applyAll (S.apply D w) ws := rfl

end

/-- What committed transactions keep, and what a lock protects. `Inv` holds of every committed
store, `Le` relates a committed store to every later one, and `Same l` says that what the lock `l`
protects is the same in two stores. -/
structure Rely (Db Lock : Type) where
  Inv : Db → Prop
  Le : Db → Db → Prop
  Same : Lock → Db → Db → Prop

/-- The laws of `Rely`: both relations are preorders, and a statement writes only what the locks it
takes protect. -/
structure Rely.Lawful (G : Rely Db Lock) (S : Store Db Write Lock Stmt Pick SRes) : Prop where
  le_refl : ∀ D, G.Le D D
  le_trans : ∀ {D₁ D₂ D₃}, G.Le D₁ D₂ → G.Le D₂ D₃ → G.Le D₁ D₃
  same_refl : ∀ l D, G.Same l D D
  same_trans : ∀ {l D₁ D₂ D₃}, G.Same l D₁ D₂ → G.Same l D₂ D₃ → G.Same l D₁ D₃
  frame : ∀ {v D s r ws}, S.exec v D s = some (r, ws) → ∀ w ∈ ws, ∀ l ∉ S.locks v D s,
    ∀ D', G.Same l D' (S.apply D' w)

/-- What may happen to the committed store while a transaction holds the locks `ls`. -/
structure Rely.Moves (G : Rely Db Lock) (ls : List Lock) (D D' : Db) : Prop where
  le : G.Le D D'
  same : ∀ l ∈ ls, G.Same l D D'
  inv : G.Inv D'

/-- The writes only touch what the locks protect. -/
def Store.Within (S : Store Db Write Lock Stmt Pick SRes) (G : Rely Db Lock) (ws : List Write)
    (ls : List Lock) : Prop :=
  ∀ w ∈ ws, ∀ l ∉ ls, ∀ D, G.Same l D (S.apply D w)

/-- The transaction, whatever others commit between its statements, commits only as `Q` allows and
rolls back only as `E` allows. `Q now D ws a` is about the store `D` its writes `ws` are committed
to, `E D e` about the store the raising statement has seen; `D` is the store the last statement has
seen. -/
def Meets (S : Store Db Write Lock Stmt Pick SRes) (G : Rely Db Lock)
    (Q : ℕ → Db → List Write → α → Prop) (E : Db → ε → Prop) (now : ℕ) :
    Prog Stmt SRes ε α → List Write → List Lock → Db → Prop
  | .pure a, ws, ls, D => ∀ D', G.Moves ls D D' → Q now D' ws a
  | .raise e, _, _, D => E D e
  | .op s k, ws, ls, D => ∀ D', G.Moves ls D D' → ∀ v : Env Pick, v.now = now →
      ∀ r ws', S.exec v (S.applyAll D' ws) s = some (r, ws') →
        Meets S G Q E now (k r) (ws ++ ws') (ls ++ S.locks v (S.applyAll D' ws) s) D'

section

variable {S : Store Db Write Lock Stmt Pick SRes} {G : Rely Db Lock}
  {Q : ℕ → Db → List Write → α → Prop} {E : Db → ε → Prop} {now : ℕ}
  {ws : List Write} {ls : List Lock} {D : Db}

theorem Rely.Moves.refl (L : G.Lawful S) (h : G.Inv D) : G.Moves ls D D :=
  ⟨L.le_refl D, fun l _ => L.same_refl l D, h⟩

theorem Rely.Moves.trans {ls' : List Lock} {D₂ D₃ : Db} (L : G.Lawful S) (h : G.Moves ls D D₂)
    (h' : G.Moves ls' D₂ D₃) (hs : ls ⊆ ls') : G.Moves ls D D₃ :=
  ⟨L.le_trans h.le h'.le, fun l hl => L.same_trans (h.same l hl) (h'.same l (hs hl)), h'.inv⟩

/-- A fact is stable under the locks `ls` if no move of the others breaks it. -/
def Rely.Stable (G : Rely Db Lock) (ls : List Lock) (K : Db → Prop) : Prop :=
  ∀ ⦃D D'⦄, G.Moves ls D D' → K D → K D'

theorem Rely.Stable.mono {K : Db → Prop} {ls' : List Lock} (h : G.Stable ls K) (hs : ls ⊆ ls') :
    G.Stable ls' K :=
  fun _ _ hm => h ⟨hm.le, fun l hl => hm.same l (hs hl), hm.inv⟩

theorem Rely.Stable.and {K K' : Db → Prop} (h : G.Stable ls K) (h' : G.Stable ls K') :
    G.Stable ls fun D => K D ∧ K' D :=
  fun _ _ hm hK => ⟨h hm hK.1, h' hm hK.2⟩

/-- The rule for a statement: carry a stable fact to the moment it runs. -/
theorem Meets.op {K : Db → Prop} (hst : G.Stable ls K) (hK : K D) {s : Stmt}
    {k : SRes s → Prog Stmt SRes ε α}
    (h : ∀ D', G.Inv D' → K D' → ∀ v : Env Pick, v.now = now → ∀ r ws',
      S.exec v (S.applyAll D' ws) s = some (r, ws') →
        Meets S G Q E now (k r) (ws ++ ws') (ls ++ S.locks v (S.applyAll D' ws) s) D') :
    Meets S G Q E now (.op s k) ws ls D :=
  fun D' hm v hv r ws' hx => h D' hm.inv (hst hm hK) v hv r ws' hx

/-- The rule for the commit: carry a stable fact to the moment of the commit. -/
theorem Meets.pure {K : Db → Prop} (hst : G.Stable ls K) (hK : K D) {a : α}
    (h : ∀ D', G.Inv D' → K D' → Q now D' ws a) : Meets S G Q E now (.pure a) ws ls D :=
  fun D' hm => h D' hm.inv (hst hm hK)

theorem Meets.mono {ls' : List Lock} (hs : ls ⊆ ls') {p : Prog Stmt SRes ε α}
    (h : Meets S G Q E now p ws ls D) : Meets S G Q E now p ws ls' D := by
  have hmove : ∀ {l l' : List Lock} {D₁ D₂ : Db}, l ⊆ l' → G.Moves l' D₁ D₂ → G.Moves l D₁ D₂ :=
    fun hl hm => ⟨hm.le, fun x hx => hm.same x (hl hx), hm.inv⟩
  induction p generalizing ws ls ls' D with
  | pure a => exact fun D' hm => h D' (hmove hs hm)
  | raise e => exact h
  | op s k ih =>
    intro D' hm v hv r ws' hx
    exact ih r (List.append_subset.mpr ⟨List.Subset.trans hs (List.subset_append_left _ _),
      List.subset_append_right _ _⟩) (h D' (hmove hs hm) v hv r ws' hx)

theorem Meets.raise {e : ε} (h : E D e) : Meets S G Q E now (.raise e) ws ls D := h

theorem Meets.ite {c : Prop} [Decidable c] {p q : Prog Stmt SRes ε α}
    (hp : c → Meets S G Q E now p ws ls D) (hq : ¬ c → Meets S G Q E now q ws ls D) :
    Meets S G Q E now (if c then p else q) ws ls D := by
  split_ifs with hc
  · exact hp hc
  · exact hq hc

theorem Meets.ofExcept {β : Type} {x : Except ε β} {k : β → Prog Stmt SRes ε α}
    (herror : ∀ e, x = .error e → E D e)
    (hok : ∀ b, x = .ok b → Meets S G Q E now (k b) ws ls D) :
    Meets S G Q E now ((Prog.ofExcept x).bind k) ws ls D := by
  cases x with
  | error e => exact herror e rfl
  | ok b => exact hok b rfl

theorem Store.Within.append {ws' : List Write} {ls' : List Lock} (h : S.Within G ws ls)
    (h' : S.Within G ws' ls') : S.Within G (ws ++ ws') (ls ++ ls') := by
  intro w hw l hl
  rw [List.mem_append, not_or] at hl
  rcases List.mem_append.mp hw with hw | hw
  · exact h w hw l hl.1
  · exact h' w hw l hl.2

/-- Writes within the locks leave alone what every other lock protects. -/
theorem Store.Within.same (L : G.Lawful S) {l : Lock} (hl : l ∉ ls) :
    ∀ {ws : List Write}, S.Within G ws ls → ∀ D, G.Same l D (S.applyAll D ws)
  | [], _, D => L.same_refl l D
  | w :: ws, h, D => by
    have hws : S.Within G ws ls := fun w' hw' => h w' (List.mem_cons_of_mem _ hw')
    exact L.same_trans (h w (by simp) l hl D) (Store.Within.same L hl hws (S.apply D w))

end

end Payflow.Lib
