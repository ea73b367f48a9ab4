import Payflow.Lib.Local
import Payflow.Model.PaymentLock
import Payflow.Spec.Footprint

/-! # The payment lock

The programs keep to the protocol of a context: one token, one `SET`, one release
(`lockDiscipline`). So every step of the system and its Redis is a move of the contexts over the
store, or none at all (`LockOk.step`), and what the moves keep holds in all runs. -/

namespace Payflow.Safety

open Payflow.Lib Payflow.Lib.TokenLock Payflow.Model Payflow.Spec

/-! ### The protocol -/

/-- The protocol of `acquire_payment_lock`. -/
def lockProtocol : Protocol (Call Block Ext) (Call.Res BRes ERes Exn) (Context String String) where
  allow
    | c, .ext .uuid4 => c = .outside
    | c, .ext (.redisSet key token) => c.Allows (.set key token)
    | c, .ext (.redisRelease key token) => c.Allows (.release key token)
    | _, _ => True
  next
    | _, .ext .uuid4, ownershipToken => .drawn (Uuid.text ownershipToken)
    | c, .ext (.redisSet key token), reply => c.after (.set key token) reply
    | c, .ext (.redisRelease key token), reply => c.after (.release key token) reply
    | c, _, _ => c

/-- Every process keeps to it. -/
def lockDiscipline (P : Platform) : Discipline (payflow P) Unit (Context String String) where
  role _ _ := some ()
  protocol _ := lockProtocol
  first := .outside
  Returns _ _ _ := True
  Raises _ _ _ := True

section programs

variable {α : Type}

/-- The operation has nothing to do with the lock. -/
def Unlocked : Call Block Ext → Prop
  | .ext .uuid4 | .ext (.redisSet _ _) | .ext (.redisRelease _ _) => False
  | _ => True

theorem unlocked_next {o : Call Block Ext} (h : Unlocked o) (c : Context String String) :
    lockProtocol.allow c o ∧ ∀ r, lockProtocol.next c o r = c := by
  cases o with
  | txn b => exact ⟨trivial, fun _ => rfl⟩
  | ext e =>
    cases e with
    | uuid4 | redisSet key token | redisRelease key token => exact h.elim
    | _ => exact ⟨trivial, fun _ => rfl⟩

/-- From a context on, the program keeps to the protocol. -/
abbrev KeepsLock (c : Context String String) {α : Type} (p : Proc α) : Prop :=
  p.Follows lockProtocol (fun _ _ => True) (fun _ _ => True) c

theorem keepsLock_of_uses {p : Proc α} (h : UsesOnly Unlocked p) (c : Context String String) :
    KeepsLock c p :=
  h.follows (fun _ ho => unlocked_next ho c) (fun _ => trivial) fun _ => trivial

/-- **The lock** around a body that does not touch it. -/
theorem keepsLock_acquirePaymentLock {m k : String} {body : Bool → Proc α}
    (hbody : ∀ acquired, UsesOnly Unlocked (body acquired)) :
    KeepsLock .outside (acquirePaymentLock m k body) := by
  refine ⟨rfl, fun (ownershipToken : Uuid) => ⟨rfl, fun (reply : Option Bool) => ?_⟩⟩
  have hset : ∀ c : Context String String, (body (reply.getD true)).Follows lockProtocol
      (fun c' _ => c' = c) (fun c' _ => c' = c) c := fun c =>
    (hbody _).follows (fun _ ho => unlocked_next ho c) (fun _ => rfl) fun _ => rfl
  have hrelease : ∀ c : Context String String,
      c = Context.after (.drawn ownershipToken.text) (.set (buildLockKey m k) ownershipToken.text)
        reply →
      KeepsLock c (if reply.getD true then
        (redisRelease (buildLockKey m k) ownershipToken.text).bind fun _ => .pure ()
      else .pure () : Proc Unit) := by
    rintro c rfl
    refine Prog.Follows.ite (fun hacquired => ⟨?_, fun _ => trivial⟩) fun _ => trivial
    show Context.Allows _ _
    rw [Context.after_set hacquired]
    exact ⟨rfl, rfl⟩
  exact Prog.Follows.andFinally (hset _) (fun c _ hc => hrelease c hc) fun c _ hc => hrelease c hc

theorem keepsLock_createPayment {P : Platform} (call : CreatePayment P) :
    KeepsLock .outside (createPayment P call) := by
  have hlock : KeepsLock .outside (createIdempotentPayment P call.merchantId call.idempotencyKey
      call.request.userId call.request.amountCents call.request.currency) := by
    unfold createIdempotentPayment
    refine keepsLock_acquirePaymentLock fun acquired => ?_
    refine .ite (uses_txn trivial fun existing => ?_) (uses_last trivial)
    cases existing with
    | none => trivial
    | some existing => exact .ite trivial trivial
  refine hlock.bind fun c r _ => keepsLock_of_uses ?_ c
  exact .ite (uses_delay trivial trivial) trivial

theorem unlocked_of_operations {P : Platform} {w : World} {x : Start P} {o : Call Block Ext}
    (h : operations w x o) (hx : ∀ call, x ≠ .createPayment call) : Unlocked o := by
  cases o with
  | txn b => trivial
  | ext e =>
    cases e with
    | uuid4 | redisSet key token | redisRelease key token =>
      cases x with
      | createPayment call => exact hx call rfl
      | task i =>
        obtain ⟨m, -, hm⟩ := h
        cases hT : m.task <;> simp [hT, taskOperations] at hm
      | _ => exact h
    | _ => trivial

theorem lock_lawful (P : Platform) : Machine.Lawful (lockDiscipline P) where
  start := by
    intro w x p hp
    refine ⟨(), rfl, ?_⟩
    by_cases hx : ∃ call, x = .createPayment call
    · obtain ⟨call, rfl⟩ := hx
      obtain rfl := Option.some.inj hp
      exact (keepsLock_createPayment call).bind fun _ _ _ => trivial
    · have hother : ∀ o, operations w x o → Unlocked o := fun o ho =>
        unlocked_of_operations ho fun call he => hx ⟨call, he⟩
      exact (uses_start hp).follows (fun o ho => unlocked_next (hother o ho) _) (fun _ => trivial)
        fun _ => trivial
  ext _ hi := hi
  finish _ _ _ _ _ hi := hi

theorem lock_outward (P : Platform) : Machine.Outward (lockDiscipline P) := fun _ _ _ _ => rfl

end programs

/-! ### The system and its Redis -/

/-- The execution of a command. -/
def executedBy : Option (ℕ × Command String String) → Effect String String
  | some (pid, command) => .executed pid command
  | none => .none

/-- What a step does to the store of the locks. -/
def lockEffect {P : Platform} (n : RedisNet P) : RedisAction P → Effect String String
  | .app _ => .none
  | .answer pid => executedBy (n.executes (.answer pid))
  | .redisError _ => .failed
  | .executeLate i => executedBy (n.executes (.executeLate i))
  | .expire key => .expired key

theorem executedBy_cases (x : Option (ℕ × Command String String)) :
    executedBy x ≠ .failed ∧ (∀ key, executedBy x ≠ .expired key) ∧
      ∀ pid command, executedBy x = .executed pid command ↔ x = some (pid, command) := by
  cases x with
  | none => exact ⟨nofun, fun _ => nofun, fun _ _ => ⟨nofun, nofun⟩⟩
  | some y =>
    refine ⟨nofun, fun _ => nofun, fun pid command => ⟨fun h => ?_, fun h => ?_⟩⟩
    · obtain ⟨rfl, rfl⟩ := Effect.executed.inj h
      rfl
    · obtain rfl := Option.some.inj h
      rfl

/-- The contexts are where the processes are, and nothing is known of a process
that is not there. -/
structure LockOk {P : Platform} (n : RedisNet P) : Prop where
  followed : Machine.Followed (lockDiscipline P) n.app n.lock.contexts
  fresh : ∀ pid, n.app.procs.length ≤ pid → n.lock.contexts pid = .outside
  ok : TokenLock.Ok n.lock

section net

variable {P : Platform} {n n' : RedisNet P}

theorem executed_executeCommand (keys : RedisKeys) (now : ℕ) (command : Command String String) :
    Executed keys command (executeCommand keys now command).1
      (executeCommand keys now command).2 := by
  cases command with
  | set key token =>
    simp only [executeCommand, setNxEx]
    cases hkey : keys key with
    | none => exact .set hkey rfl
    | some e => exact .refused (by simp [hkey])
  | release key token =>
    simp only [executeCommand, releaseLockScript]
    split_ifs with htoken
    · obtain ⟨e, hkey, rfl⟩ := Option.map_eq_some_iff.mp htoken
      exact .released hkey rfl
    · refine .kept fun e he hne => htoken ?_
      rw [he, ← hne]
      rfl

theorem procs_of_command {pid : ℕ} {command : Command String String}
    (h : n.command pid = some command) :
    ∃ x e k, n.app.procs[pid]? = some ⟨x, .run (.op (.ext e) k)⟩ ∧
    lockCommand e = some command := by
  unfold RedisNet.command RedisNet.performs at h
  split at h
  · rename_i x e k hp
    exact ⟨x, e, k, hp, h⟩
  · simp at h

theorem LockOk.allows (h : LockOk n) {pid : ℕ} {command : Command String String}
    (hcommand : n.command pid = some command) : (n.lock.contexts pid).Allows command := by
  obtain ⟨x, e, k, hp, he⟩ := procs_of_command hcommand
  obtain ⟨_, -, hallow, -⟩ := h.followed _ _ _ hp
  cases e with
  | redisSet key token | redisRelease key token =>
    obtain rfl := Option.some.inj he
    exact hallow
  | _ => cases he

theorem LockOk.answered (h : LockOk n) {pid : ℕ} {command : Command String String}
    (hcommand : n.command pid = some command) {reply : Option Bool}
    {lock : TokenLock.State String String}
    (hs : n.stepApp (.step pid (.redis reply)) lock = some n') :
    n'.lock = lock ∧
    Machine.Followed (lockDiscipline P) n'.app (n.contextsAfter pid command reply) ∧
    n'.app.procs.length = n.app.procs.length ∧ pid < n.app.procs.length := by
  obtain ⟨x, e, k, hp, he⟩ := procs_of_command hcommand
  unfold RedisNet.stepApp at hs
  split at hs
  · rename_i s hstep
    obtain rfl := Option.some.inj hs
    refine ⟨rfl, ?_, Machine.length_procs hstep, (List.getElem?_eq_some_iff.mp hp).1⟩
    obtain ⟨g, hadv, hg⟩ := h.followed.advance (lock_lawful P) (lock_outward P) hstep
    cases hadv with
    | @ext _ _ y e' k' i r hp' hi hallow hx =>
      obtain ⟨-, hst⟩ := Machine.Proc.mk.inj (Option.some.inj (hp.symm.trans hp'))
      cases hst
      cases e with
      | redisSet key token | redisRelease key token =>
        obtain rfl := Option.some.inj he
        have hr : reply = r := (Prod.mk.inj (Option.some.inj hx)).1
        subst hr
        exact hg
      | _ => cases he
    | quiet _ hne => exact absurd hp (hne _ _ _ _ _ rfl)
  · simp at hs

theorem draws_iff {pid : ℕ} : n.draws pid = true ↔
    ∃ x k, n.app.procs[pid]? = some ⟨x, .run (.op (.ext .uuid4) k)⟩ := by
  unfold RedisNet.draws RedisNet.performs
  constructor
  · intro h
    split at h
    · rename_i he
      split at he
      · rename_i x e k hp
        obtain rfl := Option.some.inj he
        exact ⟨x, k, hp⟩
      · simp at he
    · simp at h
  · rintro ⟨x, k, hp⟩
    simp [hp]

theorem lockAfter_step {pid : ℕ} {pick : Pick} (h : n.draws pid = false) :
    n.lockAfter (.step pid pick) = n.lock := by
  cases pick <;> simp [RedisNet.lockAfter, h]

theorem LockOk.fresh_token (h : LockOk n) {pid : ℕ} {id : Uuid} (hdraws : n.draws pid = true)
    (hadmits : n.admits (.step pid (.newId id)) = true) (q : ℕ) :
    (n.lock.contexts q).token ≠ some id.text := by
  by_cases hq : q < n.app.procs.length
  · simp only [RedisNet.admits, hdraws, Bool.not_true, Bool.false_or, List.all_eq_true,
      List.mem_range, bne_iff_ne] at hadmits
    exact hadmits q hq
  · rw [h.fresh q (Nat.le_of_not_lt hq)]
    exact nofun

theorem LockOk.app (h : LockOk n) {a : Action (Start P) Pick} (hadmits : n.admits a = true)
    {s : Model.State P} (hs : (payflow P).step n.app a = some s) :
    Machine.Followed (lockDiscipline P) s (n.lockAfter a).contexts ∧
    (∀ pid, s.procs.length ≤ pid → (n.lockAfter a).contexts pid = .outside) ∧
    (n.lockAfter a = n.lock ∨ Move n.lock .none (n.lockAfter a)) := by
  obtain ⟨g, hadv, hg⟩ := h.followed.advance (lock_lawful P) (lock_outward P) hs
  have hlength := Machine.length_procs_le hs
  have hfresh : ∀ pid, s.procs.length ≤ pid → n.lock.contexts pid = .outside :=
    fun pid hpid => h.fresh pid (Nat.le_trans hlength hpid)
  -- the processes move on where the lock stays
  have hstay : g = n.lock.contexts → n.lockAfter a = n.lock →
      Machine.Followed (lockDiscipline P) s (n.lockAfter a).contexts ∧
      (∀ pid, s.procs.length ≤ pid → (n.lockAfter a).contexts pid = .outside) ∧
      (n.lockAfter a = n.lock ∨ Move n.lock .none (n.lockAfter a)) := by
    intro hgc hlock
    rw [hlock]
    exact ⟨hgc ▸ hg, hfresh, Or.inl rfl⟩
  cases hadv with
  | start =>
    refine hstay ?_ rfl
    rw [← show _ = (lockDiscipline P).first from h.fresh _ (Nat.le_refl _), Function.update_eq_self]
  | @ext pid pick x e k i r hp hi hallow hx =>
    by_cases hdraws : n.draws pid = true
    · obtain ⟨y, k', hp'⟩ := draws_iff.mp hdraws
      have hst := (Machine.Proc.mk.inj (Option.some.inj (hp.symm.trans hp'))).2
      cases hst
      cases pick with
      | newId id =>
        obtain rfl : id = r := (Prod.mk.inj (Option.some.inj hx)).1
        have hlock : n.lockAfter (.step pid (.newId id)) =
            { n.lock with contexts := Function.update n.lock.contexts pid (.drawn id.text) } :=
          if_pos hdraws
        rw [hlock]
        have hpid := (List.getElem?_eq_some_iff.mp hp).1
        refine ⟨hg, fun q hq => ?_, Or.inr (.draw hallow (h.fresh_token hdraws hadmits))⟩
        show Function.update n.lock.contexts pid _ q = _
        rw [Function.update_of_ne (by omega)]
        exact hfresh q hq
      | _ => cases hx
    · have hdraws : n.draws pid = false := Bool.eq_false_iff.mpr hdraws
      refine hstay ?_ (lockAfter_step hdraws)
      have hnext : lockProtocol.next (n.lock.contexts pid) (.ext e) r = n.lock.contexts pid := by
        cases e with
        | uuid4 => simp [draws_iff.mpr ⟨x, k, hp⟩] at hdraws
        | redisSet key token | redisRelease key token =>
          cases pick with
          | redis reply => simp [RedisNet.admits] at hadmits
          | _ => cases hx
        | _ => rfl
      exact (congrArg _ hnext).trans (Function.update_eq_self _ _)
  | quiet hstart hext =>
    cases a with
    | start x => exact absurd rfl (hstart x)
    | tick n => exact hstay rfl rfl
    | step pid pick =>
      refine hstay rfl (lockAfter_step (Bool.eq_false_iff.mpr fun hdraws => ?_))
      obtain ⟨x, k, hp⟩ := draws_iff.mp hdraws
      exact hext _ _ _ _ _ rfl hp
    | kill pid =>
      obtain ⟨x, hp⟩ := Machine.step_kill hs
      have hpid := (List.getElem?_eq_some_iff.mp hp).1
      refine ⟨hg.killed hp _, fun q hq => ?_, Or.inr (.leave fun command hcommand => ?_)⟩
      · show Function.update n.lock.contexts pid _ q = _
        rw [Function.update_of_ne (by omega)]
        exact hfresh q hq
      · exact h.allows (Option.mem_toList.mp hcommand)

/-- **One step** moves the contexts over the store, or leaves both alone. -/
theorem LockOk.step (h : LockOk n) {a : RedisAction P} (hs : n.step a = some n') :
    LockOk n' ∧ (n'.lock = n.lock ∨ Move n.lock (lockEffect n a) n'.lock) := by
  have hok : n'.lock = n.lock ∨ Move n.lock (lockEffect n a) n'.lock → TokenLock.Ok n'.lock := by
    rintro (hlock | hm)
    · rw [hlock]
      exact h.ok
    · exact h.ok.move hm
  suffices hnet : Machine.Followed (lockDiscipline P) n'.app n'.lock.contexts ∧
      (∀ pid, n'.app.procs.length ≤ pid → n'.lock.contexts pid = .outside) ∧
      (n'.lock = n.lock ∨ Move n.lock (lockEffect n a) n'.lock) from
    ⟨⟨hnet.1, hnet.2.1, hok hnet.2.2⟩, hnet.2.2⟩
  -- the answer to the command of a process, or its loss
  have hanswered : ∀ {pid command} {reply : Option Bool} {lock : TokenLock.State String String},
      n.command pid = some command → n.stepApp (.step pid (.redis reply)) lock = some n' →
      lock.contexts = n.contextsAfter pid command reply → Move n.lock (lockEffect n a) lock →
      Machine.Followed (lockDiscipline P) n'.app n'.lock.contexts ∧
      (∀ pid, n'.app.procs.length ≤ pid → n'.lock.contexts pid = .outside) ∧
      (n'.lock = n.lock ∨ Move n.lock (lockEffect n a) n'.lock) := by
    intro pid command reply lock hcommand hs hcontexts hm
    obtain ⟨rfl, hfollowed, hlength, hpid⟩ := h.answered hcommand hs
    refine ⟨hcontexts ▸ hfollowed, fun q hq => ?_, Or.inr hm⟩
    rw [hcontexts]
    unfold RedisNet.contextsAfter
    rw [Function.update_of_ne (by omega)]
    exact h.fresh q (by omega)
  cases a with
  | app a =>
    simp only [RedisNet.step] at hs
    split_ifs at hs with hadmits
    unfold RedisNet.stepApp at hs
    split at hs
    · rename_i s hstep
      obtain rfl := Option.some.inj hs
      exact h.app hadmits hstep
    · simp at hs
  | answer pid =>
    simp only [RedisNet.step] at hs
    split at hs
    · rename_i command hcommand
      refine hanswered hcommand hs rfl ?_
      have heff : lockEffect n (.answer pid) = .executed pid command := by
        simp [lockEffect, RedisNet.executes, hcommand, executedBy]
      rw [heff]
      exact .answer (h.allows hcommand) (executed_executeCommand _ _ _)
    · simp at hs
  | redisError pid =>
    simp only [RedisNet.step] at hs
    split at hs
    · rename_i command hcommand
      exact hanswered hcommand hs rfl (.error (h.allows hcommand))
    · simp at hs
  | executeLate i =>
    simp only [RedisNet.step] at hs
    split at hs
    · rename_i pid command hi
      obtain rfl := Option.some.inj hs
      have heff : lockEffect n (.executeLate i) = .executed pid command := by
        simp [lockEffect, RedisNet.executes, hi, executedBy]
      rw [heff]
      exact ⟨h.followed, h.fresh, Or.inr (.late hi (executed_executeCommand _ _ _))⟩
    · simp at hs
  | expire key =>
    obtain rfl := Option.some.inj hs
    exact ⟨h.followed, h.fresh, Or.inr .expire⟩

theorem lockOk_init (P : Platform) : LockOk (RedisNet.init P) where
  followed := .empty rfl
  fresh _ _ := rfl
  ok := ⟨fun _ _ => nofun, fun _ => nofun, fun _ _ _ => nofun⟩

theorem lockOk_of_reaches {C : RedisNet P → RedisAction P → Prop}
    (h : Reaches RedisNet.step C (RedisNet.init P) n) : LockOk n :=
  h.invariant (lockOk_init P) fun hok _ hs => (hok.step hs).1

/-! ### What the lock guarantees -/

/-- The context of the process is between its successful `SET` of the key and its release. -/
def HoldsLock (n : RedisNet P) (pid : ℕ) (key : String) : Prop :=
  ∃ token, n.lock.contexts pid = .holding key token

/-- Redis executes the release of the key by the process. -/
def ReleasesLock (n : RedisNet P) (a : RedisAction P) (pid : ℕ) (key : String) : Prop :=
  ∃ token, n.executes a = some (pid, .release key token)

/-- No `RedisError` occurs, and no key expires while its holder has not released it. -/
def Undisturbed (n : RedisNet P) : RedisAction P → Prop
  | .redisError _ => False
  | .expire key => ∀ pid e, n.lock.keys key = some e → n.lock.contexts pid ≠ .holding key e.token
  | _ => True

theorem lockEffect_cases (n : RedisNet P) (a : RedisAction P) :
    (∀ key, lockEffect n a = .expired key → a = .expire key) ∧
      (lockEffect n a = .failed → ∃ pid, a = .redisError pid) ∧
      ∀ pid command, lockEffect n a = .executed pid command ↔
        n.executes a = some (pid, command) := by
  cases a with
  | app a => exact ⟨fun _ => nofun, nofun, fun _ _ => ⟨nofun, nofun⟩⟩
  | redisError pid => exact ⟨fun _ => nofun, fun _ => ⟨pid, rfl⟩, fun _ _ => ⟨nofun, nofun⟩⟩
  | expire key =>
    exact ⟨fun _ h => congrArg _ (Effect.expired.inj h), nofun, fun _ _ => ⟨nofun, nofun⟩⟩
  | answer pid | executeLate i =>
    obtain ⟨hfailed, hexpired, hexecuted⟩ := executedBy_cases (n.executes _)
    exact ⟨fun key h => absurd h (hexpired key), fun h => absurd h hfailed, hexecuted⟩

/-- **One step** leaves a stored key alone, unless it expires or is released by its owner. -/
theorem LockOk.keeps (h : LockOk n) {a : RedisAction P} (hs : n.step a = some n') {key : String}
    {e : Entry String} (he : n.lock.keys key = some e) (hexpire : a ≠ .expire key)
    (hrelease : ∀ own, (n.lock.contexts own).token = some e.token → ¬ ReleasesLock n a own key) :
    n'.lock.keys key = some e := by
  obtain ⟨hexpired, -, hexecuted⟩ := lockEffect_cases n a
  rcases (h.step hs).2 with hlock | hm
  · rw [hlock]
    exact he
  · rcases h.ok.stays hm he with he' | heff | ⟨own, heff, hown⟩
    · exact he'
    · exact absurd (hexpired key heff) hexpire
    · exact absurd ⟨_, (hexecuted _ _).mp heff⟩ (hrelease own hown)

theorem LockOk.token (h : LockOk n) {a : RedisAction P} (hs : n.step a = some n') {pid : ℕ}
    {token : String} (ht : (n.lock.contexts pid).token = some token) :
    (n'.lock.contexts pid).token = some token := by
  rcases (h.step hs).2 with hlock | hm
  · rw [hlock]
    exact ht
  · exact hm.token ht

theorem LockOk.exclusive (h : LockOk n) (hx : Exclusive n.lock) {a : RedisAction P}
    (hC : Undisturbed n a) (hs : n.step a = some n') : Exclusive n'.lock := by
  rcases (h.step hs).2 with hlock | hm
  · rw [hlock]
    exact hx
  · obtain ⟨hexpired, hfailed, -⟩ := lockEffect_cases n a
    refine hx.move h.ok hm (fun heff => ?_) fun key heff c e he => ?_
    · obtain ⟨pid, rfl⟩ := hfailed heff
      exact hC
    · obtain rfl := hexpired key heff
      exact hC c e he

/-- **The lock is never stolen, or released by a stranger.** In every run, a release changes a key
only where it holds the releaser's own token, and a stored key stays until it expires or its owner
releases it, whatever the contexts do that have lost it. While no key expires under its holder and
no `RedisError` occurs, at most one context holds a key. -/
theorem lock_never_stolen (n : RedisNet P) :
    (Reaches RedisNet.step (fun _ _ => True) (RedisNet.init P) n →
      (∀ a n' pid key token, n.step a = some n' → n.executes a = some (pid, .release key token) →
        ∀ key', n'.lock.keys key' ≠ n.lock.keys key' →
          key' = key ∧ (n.lock.contexts pid).token = some token ∧
            ∃ e, n.lock.keys key = some e ∧ e.token = token) ∧
      ∀ own key e n', n.lock.keys key = some e → (n.lock.contexts own).token = some e.token →
        Reaches RedisNet.step (fun m a => a ≠ .expire key ∧ ¬ ReleasesLock m a own key) n n' →
          n'.lock.keys key = some e) ∧
    (Reaches RedisNet.step Undisturbed (RedisNet.init P) n →
      ∀ pid pid' key, HoldsLock n pid key → HoldsLock n pid' key → pid = pid') := by
  refine ⟨fun hn => ?_, fun hn => ?_⟩
  · have hok := lockOk_of_reaches hn
    refine ⟨fun a n' pid key token hs hx key' hne => ?_, fun own key e n' he hown hrun => ?_⟩
    · rcases (hok.step hs).2 with hlock | hm
      · exact absurd (congrArg (fun lock => lock.keys key') hlock) hne
      · rw [((lockEffect_cases n a).2.2 pid (.release key token)).mpr hx] at hm
        exact hok.ok.release hm hne
    · -- the key stays, and the token is still that of the owner
      have hkept : LockOk n' ∧ n'.lock.keys key = some e ∧
          (n'.lock.contexts own).token = some e.token := by
        refine hrun.invariant (I := fun m => LockOk m ∧ m.lock.keys key = some e ∧
          (m.lock.contexts own).token = some e.token) ⟨hok, he, hown⟩ ?_
        rintro m a m' ⟨hm, he, hown⟩ ⟨hexpire, hrelease⟩ hs
        refine ⟨(hm.step hs).1, hm.keeps hs he hexpire fun own' hown' => ?_, hm.token hs hown⟩
        rwa [hm.ok.distinct own' own e.token hown' hown]
      exact hkept.2.1
  · have hx : LockOk n ∧ Exclusive n.lock :=
      hn.invariant (I := fun m => LockOk m ∧ Exclusive m.lock)
        ⟨lockOk_init P, fun _ _ _ => nofun, fun _ => nofun⟩
        fun ⟨hok, hx⟩ hC hs => ⟨(hok.step hs).1, hok.exclusive hx hC hs⟩
    rintro pid pid' key ⟨token, hpid⟩ ⟨token', hpid'⟩
    exact hx.2.unique hx.1.ok hpid hpid'

end net

/-- The lock of the first payment of the scripts. -/
def exampleLock : String := buildLockKey "demo-merchant" "payment-key-1"

/-- A call of `create_payment` up to the answer to its `SET`. -/
def takeLockScript (pid n : ℕ) : List (RedisAction examplePlatform) :=
  [.app (.start (.createPayment examplePayment))] ++ (draw pid [n]).map .app ++ [.answer pid]

/-- The key of a call expires, a second call takes the lock, and the first one
comes to its release. -/
def outlivedScript : List (RedisAction examplePlatform) :=
  takeLockScript 0 2 ++ [.expire exampleLock] ++ takeLockScript 1 3 ++
    (quiet 0 1 ++ draw 0 [1] ++ quiet 0 1 ++ draw 0 [4] ++ quiet 0 1).map .app

/-- No `RedisError`, and no key that expires. -/
def undisturbed (_ : RedisNet examplePlatform) : RedisAction examplePlatform → Bool
  | .redisError _ | .expire _ => false
  | _ => true

/-- The call that has outlived its key leaves the lock of the second one alone; and where nothing
expires, the second call is refused. -/
theorem lock_never_stolen_outlived :
    (∃ n n' : RedisNet examplePlatform, n.step (.answer 0) = some n' ∧
      ReleasesLock n (.answer 0) 0 exampleLock ∧
      (n.lock.keys exampleLock).map (·.token) = some (exampleUuid 3).text ∧
      n'.lock.keys exampleLock = n.lock.keys exampleLock) ∧
    ∃ n : RedisNet examplePlatform, n.lock.contexts 1 = .left (some (exampleUuid 3).text) ∧
      HoldsLock n 0 exampleLock ∧ ∀ pid, HoldsLock n pid exampleLock → pid = 0 := by
  constructor
  · have h : (runSteps RedisNet.step (fun _ _ => true) (RedisNet.init examplePlatform)
        outlivedScript).map (fun n => ((n.step (.answer 0)).isSome, n.executes (.answer 0),
          (n.lock.contexts 1).token, (n.lock.keys exampleLock).map (·.token))) =
        some (true, some (0, .release exampleLock (exampleUuid 2).text), some (exampleUuid 3).text,
          some (exampleUuid 3).text) := by
      decide +kernel
    obtain ⟨n, hn, h⟩ := Option.map_eq_some_iff.mp h
    simp only [Prod.mk.injEq] at h
    obtain ⟨hsome, hexecutes, htoken, hkey⟩ := h
    obtain ⟨n', hs⟩ := Option.isSome_iff_exists.mp hsome
    refine ⟨n, n', hs, ⟨_, hexecutes⟩, hkey, ?_⟩
    obtain ⟨e, he, hetoken⟩ := Option.map_eq_some_iff.mp hkey
    rw [he]
    refine ((lock_never_stolen n).1 (Reaches.runSteps (fun _ _ _ =>
      trivial) .refl hn)).2 1 _ e n' he
      (htoken.trans (congrArg some hetoken.symm)) (.step (a := .answer 0) .refl ⟨nofun, ?_⟩ hs)
    rintro ⟨token, hx⟩
    rw [hexecutes] at hx
    cases hx
  · have h : (runSteps RedisNet.step undisturbed (RedisNet.init examplePlatform)
        (takeLockScript 0 2 ++ takeLockScript 1 3)).map
          (fun n => (n.lock.contexts 0, n.lock.contexts 1)) =
        some (.holding exampleLock (exampleUuid 2).text, .left (some (exampleUuid 3).text)) := by
      decide +kernel
    obtain ⟨n, hn, h⟩ := Option.map_eq_some_iff.mp h
    obtain ⟨hzero, hone⟩ := Prod.mk.inj h
    have hholds : HoldsLock n 0 exampleLock := ⟨_, hzero⟩
    refine ⟨n, hone, hholds, fun pid hpid => ?_⟩
    refine (lock_never_stolen n).2 (Reaches.runSteps ?_ .refl hn) pid 0 _ hpid hholds
    intro m a ha
    cases a with
    | redisError pid | expire key => cases ha
    | _ => trivial

end Payflow.Safety
