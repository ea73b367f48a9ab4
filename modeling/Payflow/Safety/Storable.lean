import Payflow.Spec.PaymentCreation
import Payflow.Spec.SoloRules

/-! # A payment request that can be stored

`PaymentRequest` checks the length of the currency before `normalize_currency`, which can make it
longer, and nothing looks for NUL characters. A request whose key is new is answered with 201 if its
texts fit into the columns of `payments`, and by an error of the database if not. -/

namespace Payflow.Safety

open Payflow.Lib Payflow.Model Payflow.Spec

variable {P : Platform} {call : CreatePayment P} {pid : ℕ}

/-- The text has at most `n` characters, or only spaces after them. -/
def Fits (n : ℕ) (s : String) : Prop :=
  s.length ≤ n ∨ (s.toList.drop n).all (· == ' ') = true

theorem varchar_ok_iff {n : ℕ} {s : String} : (∃ t, varchar n s = .ok t) ↔ Fits n s := by
  unfold varchar Fits
  by_cases hn : s.length ≤ n
  · simp [hn]
  · by_cases hspaces : (s.toList.drop n).all (· == ' ') = true
    · rw [if_neg hn, if_pos hspaces]
      simp [hspaces]
    · simp [hn, hspaces]

/-- The texts of the call have no NUL character, and the currency, as it is inserted, fits into its
column. -/
structure Storable (call : CreatePayment P) : Prop where
  merchantId : hasNul call.merchantId = false
  idempotencyKey : hasNul call.idempotencyKey = false
  userId : hasNul call.request.userId = false
  currency : hasNul (P.upper call.request.currency) = false
  length : Fits 3 (P.upper call.request.currency)

/-- The `INSERT` of the call. -/
def execInsert (call : CreatePayment P) (now : ℕ) (D : Db) (id : Uuid) :
    Except Exn (Option Payment) × List Write :=
  execInsertPayment now D id call.merchantId call.idempotencyKey
    (generateRequestHash P call.request.userId call.request.amountCents call.request.currency)
    call.request.userId call.request.amountCents (P.upper call.request.currency)

/-- **The `INSERT` of a new key** makes a row if the call can be stored. -/
theorem execInsert_storable (h : Storable call) (now : ℕ) {D : Db} {id : Uuid}
    (hkey : D.paymentByKey? call.merchantId call.idempotencyKey = none)
    (hid : D.payment? id = none) :
    ∃ row, execInsert call now D id = (.ok (some row), [.insertPayment row]) := by
  obtain ⟨hm, hk, hu, hc, hfits⟩ := h
  obtain ⟨c, hvar⟩ := varchar_ok_iff.mpr hfits
  have hamount : call.request.amountCents ≠ 0 :=
    Nat.pos_iff_ne_zero.mp call.request.amountCents_range.1
  unfold execInsert execInsertPayment
  simp only [hm, hk, hu, hc, Bool.or_false, Bool.false_eq_true, if_false, hvar, hamount, hkey, hid,
    Option.isSome_none]
  exact ⟨_, rfl⟩

theorem execInsert_not_storable (h : ¬ Storable call) (now : ℕ) (D : Db) (id : Uuid) :
    ∃ message, execInsert call now D id = (.error (.dataError message), []) := by
  unfold execInsert execInsertPayment
  by_cases hnul : (hasNul call.merchantId || hasNul call.idempotencyKey ||
      hasNul call.request.userId || hasNul (P.upper call.request.currency)) = true
  · rw [if_pos hnul]
    exact ⟨_, rfl⟩
  rw [if_neg hnul]
  simp only [Bool.or_eq_true, not_or, Bool.not_eq_true] at hnul
  obtain ⟨⟨⟨hm, hk⟩, hu⟩, hc⟩ := hnul
  cases hvar : varchar 3 (P.upper call.request.currency) with
  | ok c => exact absurd ⟨hm, hk, hu, hc, varchar_ok_iff.mp ⟨c, hvar⟩⟩ h
  | error e =>
    obtain ⟨message, rfl⟩ := varchar_error hvar
    exact ⟨message, rfl⟩

/-! ### The call on its own -/

/-- The key is not locked in Redis, or Redis is not there, and the broker takes the task. -/
def Serves : ℕ → (e : Ext) → ERes e → Prop
  | _, .redisSet _ _, reply => reply ≠ some false
  | _, .delay _, sent => sent = true
  | _, _, _ => True

/-- The call has made its row, or the database has refused it, by what the call holds. -/
def Inserted (call : CreatePayment P) (res : Except Exn (Payment × Bool)) (D : Db) : Prop :=
  (Storable call ∧ ∃ row, res = .ok (row, false) ∧ row ∈ D.payments) ∨
    (¬ Storable call ∧ ∃ message, res = .error (.dataError message))

theorem soloTxn_creation {now : ℕ} {D : Db}
    (hkey : D.paymentByKey? call.merchantId call.idempotencyKey = none) :
    SoloTxn store now (Inserted call) (body P (creation call)) D := by
  intro pick id ws hx
  obtain ⟨id', hnew, he⟩ := drawn_of_map (f := fun id => (id, ([] : List Write))) hx
  obtain ⟨rfl, rfl⟩ := Prod.mk.inj he
  intro pick res ws hx
  have hx : some (execInsert call now D id') = some (res, ws) := hx
  have hid : D.payment? id' = none := by
    refine List.find?_eq_none.mpr fun row hrow hrid => hnew ?_
    have hrid : row.id = id' := of_decide_eq_true hrid
    simp [Db.ids, ← hrid, List.mem_map_of_mem hrow]
  by_cases hs : Storable call
  · obtain ⟨row, hrow⟩ := execInsert_storable hs now hkey hid
    rw [hrow] at hx
    obtain ⟨rfl, rfl⟩ := Prod.mk.inj (Option.some.inj hx)
    refine solo_insertPaymentEvent fun event _ => ?_
    exact Or.inl ⟨hs, row, rfl, by simp [Store.applyAll, store, Db.apply]⟩
  · obtain ⟨message, herror⟩ := execInsert_not_storable hs now D id'
    rw [herror] at hx
    obtain ⟨rfl, rfl⟩ := Prod.mk.inj (Option.some.inj hx)
    exact Or.inr ⟨hs, message, rfl⟩

/-- What the call is answered: 201 with its row, or the error of the database. -/
def EndsStored (call : CreatePayment P) (out : Except Exn PaymentResponse) (D : Db) : Prop :=
  (Storable call ∧ ∃ row, out = .ok ⟨201, false, row, false⟩ ∧ row ∈ D.payments) ∨
    (¬ Storable call ∧ ∃ message, out = .error (.dataError message))

theorem solo_underLock {D : Db} {n : ℕ} {key token : String}
    (hkey : D.paymentByKey? call.merchantId call.idempotencyKey = none) :
    Machine.Solo (payflow P) pid Serves (fun res D _ => Inserted call res D)
      (Prog.andFinally (txn (creation call)) (do
        let _ ← redisRelease key token
        return ())) D n := by
  have htxn : Machine.Solo (payflow P) pid Serves (fun res D _ => Inserted call res D)
      (txn (creation call)) D n := by
    intro now
    refine (soloTxn_creation hkey).mono fun res D' hres => ?_
    cases res with
    | ok r => exact hres
    | error e =>
      rcases hres with ⟨-, row, he, -⟩ | herror
      · cases he
      · exact Or.inr herror
  refine htxn.andFinally fun res D n hres => ?_
  intro pick w r w' _ _
  exact hres

theorem solo_afterInsert {p : Proc (Payment × Bool)} {D : Db} {n : ℕ}
    (hp : Machine.Solo (payflow P) pid Serves (fun res D _ => Inserted call res D) p D n) :
    Machine.Solo (payflow P) pid Serves (fun out D _ => EndsStored call out D) (p.bind fun r =>
      if !r.2 then do
        delay (.processPayment r.1.id call.xTestScenario)
        return ⟨201, false, r.1, false⟩
      else return ⟨200, true, r.1, true⟩) D n := by
  refine hp.bind (fun r D n hr => ?_) fun e D n he => ?_
  · rcases hr with ⟨hs, row, hrow, hmem⟩ | ⟨-, message, hmessage⟩
    · obtain rfl := Except.ok.inj hrow
      intro pick w sent w' _ hsent
      obtain rfl : sent = true := hsent
      exact Or.inl ⟨hs, row, rfl, hmem⟩
    · cases hmessage
  · rcases he with ⟨-, row, hrow, -⟩ | ⟨hs, message, hmessage⟩
    · cases hrow
    · obtain rfl := Except.error.inj hmessage
      exact Or.inr ⟨hs, message, rfl⟩

/-- **How the call ends on its own**, when its key is new. -/
theorem solo_createPayment {D : Db} {n : ℕ}
    (hkey : D.paymentByKey? call.merchantId call.idempotencyKey = none) :
    Machine.Solo (payflow P) pid Serves (fun out D _ => EndsStored call out D)
      (createPayment P call) D n := by
  intro pick w token w' _ _ pick w reply w' _ hreply
  cases reply with
  | none => exact solo_afterInsert (solo_underLock hkey)
  | some acquired =>
    cases acquired with
    | true => exact solo_afterInsert (solo_underLock hkey)
    | false => exact absurd rfl hreply

theorem answerable_serves : Machine.Answerable (payflow P) pid Serves where
  pick := ⟨.nothing⟩
  exec := exists_exec
  ext n w e := by
    cases e with
    | uuid4 => exact ⟨.newId ⟨0⟩, _, _, rfl, trivial⟩
    | redisSet _ _ => exact ⟨.redis none, none, w, rfl, nofun⟩
    | redisRelease _ _ => exact ⟨.redis none, _, _, rfl, trivial⟩
    | delay _ => exact ⟨.broker true, true, _, rfl, rfl⟩
    | sendRetry _ _ => exact ⟨.broker false, _, _, rfl, trivial⟩
    | postPayment _ _ | getPayment _ | postRefund _ _ =>
      exact ⟨.http .timeoutException, _, _, rfl, trivial⟩

/-- The call has just been started with a new key, while no other process holds a lock. -/
structure BeginsCall (s : State P) (pid : ℕ) (call : CreatePayment P) : Prop where
  proc : ∃ q, start P s.world (.createPayment call) = some q ∧
    s.procs[pid]? = some ⟨.createPayment call, .run q⟩
  alone : Machine.othersLocks (payflow P) s pid = []
  newKey : s.db.paymentByKey? call.merchantId call.idempotencyKey = none

/-- The call is answered with 201 and a row of the table. -/
def Accepted (out : Except Exn Ans) (D : Db) : Prop :=
  ∃ row ∈ D.payments, out = .ok (.payment ⟨201, false, row, false⟩)

/-- The database has refused the values of the call. -/
def Refused (out : Except Exn Ans) : Prop := ∃ message, out = .error (.dataError message)

theorem exists_end_of_begins {s : State P} (h : BeginsCall s pid call) :
    ∃ n s' out, Machine.RunsSolo (payflow P) pid Serves 0 s n s' ∧
      s'.procs[pid]? = some ⟨.createPayment call, .done out⟩ := by
  obtain ⟨q, -, hp⟩ := h.proc
  obtain ⟨n, s', out, hrun, hp'⟩ := Machine.exists_end answerable_serves _ hp h.alone
  exact ⟨n, s', out, hrun, hp'⟩

theorem ends_of_begins {s s' : State P} (h : BeginsCall s pid call) {n : ℕ} {x : Start P}
    {out : Except Exn Ans} (hrun : Machine.RunsSolo (payflow P) pid Serves 0 s n s')
    (hend : s'.procs[pid]? = some ⟨x, .done out⟩) :
    (Accepted out s'.db ∧ Storable call) ∨ (Refused out ∧ ¬ Storable call) := by
  obtain ⟨q, hq, hp⟩ := h.proc
  obtain rfl := Option.some.inj hq
  have hstart : Machine.SoloStatus (payflow P) pid Serves (fun out D _ =>
      (Accepted out D ∧ Storable call) ∨ (Refused out ∧ ¬ Storable call)) s.db 0
      (.run ((createPayment P call).bind fun r => .pure (.payment r))) := by
    refine Machine.Solo.bind (solo_createPayment h.newKey) (fun r D n hr => ?_) fun e D n he => ?_
    · rcases hr with ⟨hs, row, hrow, hmem⟩ | ⟨-, message, hmessage⟩
      · obtain rfl := Except.ok.inj hrow
        exact Or.inl ⟨⟨row, hmem, rfl⟩, hs⟩
      · cases hmessage
    · rcases he with ⟨-, row, hrow, -⟩ | ⟨hs, message, hmessage⟩
      · cases hrow
      · obtain rfl := Except.error.inj hmessage
        exact Or.inr ⟨⟨message, rfl⟩, hs⟩
  obtain ⟨st, hp', hst⟩ := hrun.ends hp hstart
  obtain ⟨rfl, rfl⟩ := Machine.Proc.mk.inj (Option.some.inj (hend.symm.trans hp'))
  exact hst

theorem not_refused_of_accepted {out : Except Exn Ans} {D : Db} (h : Accepted out D) :
    ¬ Refused out := by
  obtain ⟨row, -, rfl⟩ := h
  rintro ⟨message, he⟩
  cases he

/-- **Main result.** A request with a new key always comes to its end. It is answered with 201, and
its payment is in the table, if and only if the request can be stored; otherwise the database
raises. -/
theorem accepted_iff {s : State P} (h : BeginsCall s pid call) :
    (∃ n s' out, Machine.RunsSolo (payflow P) pid Serves 0 s n s' ∧
      s'.procs[pid]? = some ⟨.createPayment call, .done out⟩) ∧
    ∀ n s' x out, Machine.RunsSolo (payflow P) pid Serves 0 s n s' →
      s'.procs[pid]? = some ⟨x, .done out⟩ →
      (Accepted out s'.db ↔ Storable call) ∧ (Refused out ↔ ¬ Storable call) := by
  refine ⟨exists_end_of_begins h, fun n s' x out hrun hend => ?_⟩
  rcases ends_of_begins h hrun hend with ⟨haccepted, hs⟩ | ⟨hrefused, hs⟩
  · have hnot := not_refused_of_accepted haccepted
    exact ⟨⟨fun _ => hs, fun _ => haccepted⟩, ⟨fun hr => absurd hr hnot, fun hns =>
      absurd hs hns⟩⟩
  · have hnot : ¬ Accepted out s'.db := fun ha => not_refused_of_accepted ha hrefused
    exact ⟨⟨fun ha => absurd ha hnot, fun hs' => absurd hs' hs⟩, ⟨fun _ => hs, fun _ => hrefused⟩⟩

/-! ### Examples -/

/-- A call has been started before any payment was made. -/
def oneCall (P : Platform) (call : CreatePayment P) : State P where
  db := Db.empty
  world := ⟨[]⟩
  clock := 0
  procs := [⟨.createPayment call, .run ((createPayment P call).bind fun r => .pure (.payment r))⟩]

theorem oneCall_begins (call : CreatePayment P) : BeginsCall (oneCall P call) 0 call :=
  ⟨⟨_, rfl, rfl⟩, rfl, rfl⟩

/-- The request of the scripts is answered with 201. -/
theorem accepted_examplePayment : ∃ (s' : State examplePlatform) (out : Except Exn Ans),
    s'.procs[0]? = some ⟨.createPayment examplePayment, .done out⟩ ∧ Accepted out s'.db := by
  obtain ⟨⟨n, s', out, hrun, hend⟩, hiff⟩ := accepted_iff (oneCall_begins examplePayment)
  have hs : Storable examplePayment :=
    ⟨by decide, by decide, by decide, by decide, Or.inl (by decide)⟩
  exact ⟨s', out, hend, (hiff n s' _ out hrun hend).1.mpr hs⟩

/-- A platform that upper-cases `ß`. -/
def sharpPlatform : Platform :=
  { examplePlatform with
    upper := fun s => if s = "ßab" then "SSAB" else s
    upper_upper := fun s => by split_ifs <;> simp }

/-- A request of three characters that become four. -/
def sharpPayment : CreatePayment sharpPlatform where
  merchantId := examplePayment.merchantId
  idempotencyKey := examplePayment.idempotencyKey
  request := { examplePayment.request with rawCurrency := "ßab", rawCurrency_length := by decide }
  xTestScenario := .success
  idempotencyKey_length := examplePayment.idempotencyKey_length

/-- **An accepted request that is not stored.** The currency `ßab` has three characters, and `SSAB`
is too long for the column: the database raises. -/
theorem accepted_fails : ∃ (n : ℕ) (s' : State sharpPlatform) (out : Except Exn Ans),
    BeginsCall (oneCall sharpPlatform sharpPayment) 0 sharpPayment ∧
      Machine.RunsSolo (payflow sharpPlatform) 0 Serves 0 (oneCall sharpPlatform sharpPayment)
        n s' ∧
      s'.procs[0]? = some ⟨.createPayment sharpPayment, .done out⟩ ∧ Refused out ∧
      ¬ Accepted out s'.db := by
  have h := oneCall_begins sharpPayment
  obtain ⟨n, s', out, hrun, hend⟩ := exists_end_of_begins h
  have hns : ¬ Storable sharpPayment := fun hs => by
    rcases hs.length with hlength | hspaces
    · revert hlength
      decide
    · revert hspaces
      decide
  rcases ends_of_begins h hrun hend with ⟨-, hs⟩ | ⟨hrefused, -⟩
  · exact absurd hs hns
  · exact ⟨n, s', out, h, hrun, hend, hrefused, fun ha => not_refused_of_accepted ha hrefused⟩

end Payflow.Safety
