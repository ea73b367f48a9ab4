import Payflow.Lib.Steps
import Payflow.Lib.TokenLock
import Payflow.Model.System

/-! # The system and its Redis

The system with the Redis that keeps the locks of `acquire_payment_lock`. Redis executes one command
at a time, and a key may be gone at any time. A `RedisError` says nothing about the command: it was
not executed, or its answer was lost, or it is executed later. The same holds of the command of a
process that is killed. The ids of `uuid4` are distinct. -/

namespace Payflow.Model

open Payflow.Lib Payflow.Lib.TokenLock

/-- `settings.idempotency_lock_seconds`. -/
def idempotencyLockSeconds : ℕ := 30

/-- The keys of Redis. -/
abbrev RedisKeys := String → Option (Entry String)

/-- `SET key token NX EX seconds`. -/
def setNxEx (keys : RedisKeys) (now : ℕ) (key token : String) : Bool × RedisKeys :=
  match keys key with
  | none => (true, Function.update keys key (some ⟨token, now + idempotencyLockSeconds⟩))
  | some _ => (false, keys)

/-- `RELEASE_LOCK_SCRIPT`. -/
def releaseLockScript (keys : RedisKeys) (key token : String) : Bool × RedisKeys :=
  if (keys key).map (·.token) = some token then (true, Function.update keys key none)
  else (false, keys)

/-- What Redis does with a command. -/
def executeCommand (keys : RedisKeys) (now : ℕ) : Command String String → Bool × RedisKeys
  | .set key token => setNxEx keys now key token
  | .release key token => releaseLockScript keys key token

/-- The command of a process. -/
def lockCommand : Ext → Option (Command String String)
  | .redisSet key token => some (.set key token)
  | .redisRelease key token => some (.release key token)
  | _ => none

/-- The system, and the keys of Redis with the commands on their way to it. The contexts of
`acquire_payment_lock` go by the numbers of their processes. -/
structure RedisNet (P : Platform) where
  app : Model.State P
  lock : TokenLock.State String String

/-- What can happen in one step. -/
inductive RedisAction (P : Platform) where
  | app (a : Action (Start P) Pick)
  | answer (pid : ℕ)
  | redisError (pid : ℕ)
  | executeLate (i : ℕ)
  | expire (key : String)

namespace RedisNet

variable {P : Platform} (n : RedisNet P)

/-- The external action that a process is about to perform. -/
def performs (pid : ℕ) : Option Ext :=
  match n.app.procs[pid]? with
  | some ⟨_, .run (.op (.ext e) _)⟩ => some e
  | _ => none

/-- Its command for Redis. -/
def command (pid : ℕ) : Option (Command String String) := (n.performs pid).bind lockCommand

/-- The process is about to draw its token. -/
def draws (pid : ℕ) : Bool :=
  match n.performs pid with
  | some .uuid4 => true
  | _ => false

/-- The action needs nothing of Redis, and draws no token twice. -/
def admits : Action (Start P) Pick → Bool
  | .step _ (.redis _) => false
  | .step pid (.newId id) => !n.draws pid ||
    (List.range n.app.procs.length).all fun q => (n.lock.contexts q).token != some id.text
  | _ => true

/-- The contexts after an action of the system; a killed process may leave a command behind. -/
def lockAfter : Action (Start P) Pick → TokenLock.State String String
  | .step pid (.newId id) =>
    if n.draws pid then
      { n.lock with contexts := Function.update n.lock.contexts pid (.drawn id.text) }
    else n.lock
  | .kill pid =>
    { n.lock with
      contexts := Function.update n.lock.contexts pid (.left (n.lock.contexts pid).token)
      late := n.lock.late ++ (n.command pid).toList.map fun command => (pid, command) }
  | _ => n.lock

/-- The context of a process when its command was answered, or has failed. -/
def contextsAfter (pid : ℕ) (command : Command String String) (reply : Option Bool) :
    ℕ → Context String String :=
  Function.update n.lock.contexts pid ((n.lock.contexts pid).after command reply)

/-- The process goes on. -/
def stepApp (a : Action (Start P) Pick) (lock : TokenLock.State String String) :
    Option (RedisNet P) :=
  match (payflow P).step n.app a with
  | some s => some ⟨s, lock⟩
  | none => none

/-- One step. -/
def step : RedisAction P → Option (RedisNet P)
  | .app a => if n.admits a then n.stepApp a (n.lockAfter a) else none
  | .answer pid =>
    match n.command pid with
    | some command =>
      let (reply, keys) := executeCommand n.lock.keys n.app.clock command
      n.stepApp (.step pid (.redis (some reply)))
        { n.lock with keys := keys, contexts := n.contextsAfter pid command (some reply) }
    | none => none
  | .redisError pid =>
    match n.command pid with
    | some command =>
      n.stepApp (.step pid (.redis none))
        { n.lock with
          contexts := n.contextsAfter pid command none
          late := n.lock.late ++ [(pid, command)] }
    | none => none
  | .executeLate i =>
    match n.lock.late[i]? with
    | some (_, command) =>
      some { n with lock := { n.lock with
        keys := (executeCommand n.lock.keys n.app.clock command).2
        late := n.lock.late.eraseIdx i } }
    | none => none
  | .expire key =>
    some { n with lock := { n.lock with keys := Function.update n.lock.keys key none } }

/-- The command that Redis executes in a step, with the process it is from. -/
def executes : RedisAction P → Option (ℕ × Command String String)
  | .answer pid => (n.command pid).map fun command => (pid, command)
  | .executeLate i => n.lock.late[i]?
  | _ => none

end RedisNet

/-- Before the first request. -/
def RedisNet.init (P : Platform) : RedisNet P :=
  ⟨Model.init P, ⟨fun _ => none, fun _ => .outside, []⟩⟩

end Payflow.Model
