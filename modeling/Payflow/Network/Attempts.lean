import Payflow.Lib.Attempts
import Payflow.Network.Exchange

/-! # Attempts

Each attempt of a task sends a new request, and the provider makes a new record for each request
that it takes up. A client that has given up does not know whether its request was accepted, and
neither do those who come after it. `Kind` has what payments and refunds have in common here, and
`Single` says that no more than one attempt counts: it is kept by every step but the two that
`careful` leaves out (`single_of_reaches`). -/

namespace Payflow.Network

open Payflow.Lib Payflow.Model Payflow.Spec

/-- A kind of requests: the records that the provider keeps of them, what a request is for if its
scenario lets it succeed, whether the provider takes it up, what has failed in the database, and
which transactions give up without an answer of the provider. -/
structure Kind (P : Platform) (R : Type) extends Records R ProviderStatus where
  rows : Provider → List R
  key : R → String
  object : R → Uuid
  key_set : ∀ st r, key (set st r) = key r
  object_set : ∀ st r, object (set st r) = object r
  wants : Ext → Option Uuid
  admits : Provider → Ext → Bool
  failed : Db → Uuid → Bool
  givesUp : Block → Option Uuid

/-- The provider works on the request, or has answered it without an error. -/
def accepted : CallState → Bool
  | .sent => false
  | .handled (.asleep _) => true
  | .handled (.ended r) => decide (r.statusCode < 400)

/-- The requests, and how far they have come. -/
def attempts {P : Platform} (n : Net P) : List (Ext × CallState) :=
  n.calls.map fun c => (c.request, c.state)

namespace Kind

variable {P : Platform} {R : Type} (K : Kind P R)

/-- The records with success. -/
def done (S : Provider) (x : Uuid) : List R :=
  (K.rows S).filter fun r => decide (K.object r = x ∧ K.status r = .succeeded)

/-- A request that is to succeed was accepted. -/
def taken (as : List (Ext × CallState)) (x : Uuid) : Bool :=
  as.any fun (e, st) => decide (K.wants e = some x) && accepted st

/-- The attempt with the record under the key has succeeded, or its handler sleeps. -/
def Counts (S : Provider) (as : List (Ext × CallState)) (x : Uuid) (k : String) : Prop :=
  (∃ r ∈ K.rows S, K.key r = k ∧ K.object r = x ∧ K.status r = .succeeded) ∨
    ∃ e, (e, CallState.handled (.asleep k)) ∈ as ∧ K.wants e = some x

/-- No request is taken up after one for the same that was accepted, or after a failure; and nothing
is given up when a request for it was accepted. -/
def careful (n : Net P) : NetAction P → Bool
  | .receive i _ _ =>
    match n.calls[i]? with
    | some c =>
      match K.wants c.request with
      | some x => !K.admits n.provider c.request ||
        (!K.taken (attempts n) x && !K.failed n.app.db x)
      | none => true
    | none => true
  | .app a =>
    match Machine.event (payflow P) n.app a with
    | some (.commit _ b) =>
      match K.givesUp b with
      | some x => K.failed n.app.db x || !K.taken (attempts n) x
      | none => true
    | _ => true
  | _ => true

/-- At most one attempt counts, and none of what has failed; what counts was accepted. -/
structure Single (S : Provider) (as : List (Ext × CallState)) (D : Db) : Prop where
  keys : ((K.rows S).map K.key).Nodup
  alone : Alone (K.Counts S as) fun x => K.failed D x = true
  taken : ∀ x k, K.Counts S as x k → K.taken as x = true

/-! ### The handlers -/

/-- What is true of the records when a handler has begun. -/
inductive Begins (S S' : Provider) (id : String) (e : Ext) (hd : Handler) : Prop
  | idle : K.rows S' = K.rows S → (∀ k, hd = .asleep k → K.wants e = none) → Begins S S' id e hd
  | record (r : R) : K.rows S' = K.rows S ++ [r] → K.key r = id → id ∉ (K.rows S).map K.key →
      K.admits S e = true → (∀ k, hd = .asleep k → k = id) →
      (K.status r = .succeeded → K.wants e = some (K.object r) ∧ accepted (.handled hd) = true) →
      Begins S S' id e hd

/-- What is true of the records when a handler that has slept has ended. -/
inductive Finishes (S S' : Provider) (id : String) (e : Ext) (hd : Handler) : Prop
  | idle : K.rows S' = K.rows S → K.wants e = none → (∀ k, hd ≠ .asleep k) → Finishes S S' id e hd
  | record (st : ProviderStatus) :
      K.rows S' = setWhere (fun r => K.key r = id) (K.set st) (K.rows S) →
      (st = .succeeded → ∀ r ∈ K.rows S, K.key r = id → K.wants e = some (K.object r)) →
      accepted (.handled hd) = true → (∀ k, hd ≠ .asleep k) → Finishes S S' id e hd

/-- What is used of a kind. -/
structure Lawful : Prop where
  webhooks : ∀ (S : Provider) ws, K.rows { S with webhooks := ws } = K.rows S
  begins : ∀ {S S' id text e hd}, handle P S id text e = some (S', hd) → K.Begins S S' id e hd
  finishes : ∀ {S S' id e hd}, ((K.rows S).map K.key).Nodup → Asleep S id e →
    wakeHandler S id e = some (S', hd) → K.Finishes S S' id e hd
  fails : ∀ {n : Net P} {b : Block} {now ws} {r : BRes b} {x}, NetOk n → Callable (view n) b →
    Requires b n.app.db → Does P b now n.app.db ws r →
    ((K.rows n.provider).map K.key).Nodup →
    K.failed (store.applyAll n.app.db ws) x = true →
      K.failed n.app.db x = true ∨ K.givesUp b = some x ∨
        ∀ k, ¬ K.Counts n.provider (attempts n) x k

variable {K} {S S' : Provider} {as : List (Ext × CallState)} {D : Db} {i : ℕ} {e : Ext}
  {hd : Handler} {id : String}

/-- Whose state was accepted stays so, when an attempt moves on that was not. -/
theorem taken_set {st : CallState} (hi : as[i]? = some (e, st)) {st' : CallState}
    (hst : ∀ x, K.wants e = some x → accepted st = true → accepted st' = true) {x : Uuid}
    (h : K.taken as x = true) : K.taken (as.set i (e, st')) x = true := by
  obtain ⟨⟨e', st₁⟩, hmem, hx⟩ := List.any_eq_true.mp h
  simp only [Bool.and_eq_true, decide_eq_true_eq] at hx
  obtain ⟨j, hj⟩ := List.getElem?_of_mem hmem
  refine List.any_eq_true.mpr ?_
  by_cases hji : j = i
  · subst hji
    obtain ⟨rfl, rfl⟩ := Prod.mk.inj (Option.some.inj (hi.symm.trans hj))
    refine ⟨(e, st'), List.mem_of_getElem? (List.getElem?_set_self ?_), ?_⟩
    · exact (List.getElem?_eq_some_iff.mp hi).1
    · simp [hx.1, hst x hx.1 hx.2]
  · refine ⟨(e', st₁), List.mem_of_getElem? (i := j) ?_, by simp [hx.1, hx.2]⟩
    rw [List.getElem?_set_ne (Ne.symm hji)]
    exact hj

theorem taken_self (hi : i < as.length) {x : Uuid} (hx : K.wants e = some x)
    (hacc : accepted (.handled hd) = true) : K.taken (as.set i (e, .handled hd)) x = true := by
  refine List.any_eq_true.mpr ⟨(e, .handled hd), ?_, by simp [hx, hacc]⟩
  exact List.mem_of_getElem? (List.getElem?_set_self hi)

theorem Single.keep (h : K.Single S as D) {D' : Db} {as' : List (Ext × CallState)}
    (hkeys : ((K.rows S').map K.key).Nodup)
    (hcounts : ∀ x k, K.Counts S' as' x k → K.Counts S as x k)
    (htaken : ∀ x, K.taken as x = true → K.taken as' x = true)
    (hfailed : ∀ x, K.failed D' x = true → K.failed D x = true ∨ ∀ k, ¬ K.Counts S as x k) :
    K.Single S' as' D' :=
  ⟨hkeys, h.alone.keep hcounts hfailed, fun x k hk => htaken x (h.taken x k (hcounts x k hk))⟩

/-- **A request is received.** -/
theorem Single.receive (h : K.Single S as D) (hi : as[i]? = some (e, .sent))
    (hb : K.Begins S S' id e hd)
    (hcareful : ∀ x, K.wants e = some x → K.admits S e = true →
      K.taken as x = false ∧ K.failed D x = false) :
    K.Single S' (as.set i (e, .handled hd)) D := by
  have hlt := (List.getElem?_eq_some_iff.mp hi).1
  have htaken : ∀ x, K.taken as x = true → K.taken (as.set i (e, .handled hd)) x = true :=
    fun x => taken_set hi fun _ _ hsent => by simp [accepted] at hsent
  -- what counts on account of a sleeping handler
  have hsleep : ∀ {e' k}, (e', CallState.handled (.asleep k)) ∈ as.set i (e, .handled hd) →
      (e', CallState.handled (.asleep k)) ∈ as ∨ (e' = e ∧ hd = .asleep k) := by
    intro e' k hmem
    rcases List.mem_or_eq_of_mem_set hmem with hmem | heq
    · exact Or.inl hmem
    · obtain ⟨rfl, hst⟩ := Prod.mk.inj heq
      exact Or.inr ⟨rfl, (CallState.handled.inj hst).symm⟩
  cases hb with
  | idle hrows hnone =>
    refine h.keep (hrows ▸ h.keys) (fun x k hk => ?_) htaken fun x hx => Or.inl hx
    rcases hk with ⟨r, hr, hk⟩ | ⟨e', hmem, hx⟩
    · exact Or.inl ⟨r, hrows ▸ hr, hk⟩
    · rcases hsleep hmem with hmem | ⟨rfl, hhd⟩
      · exact Or.inr ⟨e', hmem, hx⟩
      · simp [hnone k hhd] at hx
  | record r hrows hkey hnew hadmits hasleep hdone =>
    have hkeys : ((K.rows S').map K.key).Nodup := by
      rw [hrows]
      exact nodup_map_append h.keys (hkey ▸ hnew)
    have hcounts : ∀ x k, K.Counts S' (as.set i (e, .handled hd)) x k → K.Counts S as x k ∨
        (K.wants e = some x ∧ k = id ∧ accepted (.handled hd) = true) := by
      rintro x k (⟨r', hr', hk, hx, hst⟩ | ⟨e', hmem, hx⟩)
      · rw [hrows] at hr'
        rcases List.mem_append.mp hr' with hr' | hr'
        · exact Or.inl (Or.inl ⟨r', hr', hk, hx, hst⟩)
        · obtain rfl := List.mem_singleton.mp hr'
          obtain ⟨hwants, hacc⟩ := hdone hst
          exact Or.inr ⟨hx ▸ hwants, hk.symm.trans hkey, hacc⟩
      · rcases hsleep hmem with hmem | ⟨rfl, hhd⟩
        · exact Or.inl (Or.inr ⟨e', hmem, hx⟩)
        · exact Or.inr ⟨hx, hasleep k hhd, by rw [hhd]; rfl⟩
    cases hwants : K.wants e with
    | none =>
      refine h.keep hkeys (fun x k hk => ?_) htaken fun x hx => Or.inl hx
      rcases hcounts x k hk with hk | ⟨hx, -⟩
      · exact hk
      · simp [hwants] at hx
    | some x₀ =>
      obtain ⟨hfree, hok⟩ := hcareful x₀ hwants hadmits
      refine ⟨hkeys, h.alone.attempt x₀ id (fun x k hk => ?_) (fun k hk => ?_)
        (by simp [hok]), fun x k hk => ?_⟩
      · rcases hcounts x k hk with hk | ⟨hx, rfl, -⟩
        · exact Or.inl hk
        · exact Or.inr ⟨(Option.some.inj (hwants.symm.trans hx)).symm, rfl⟩
      · simp [h.taken x₀ k hk] at hfree
      · rcases hcounts x k hk with hk | ⟨hx, -, hacc⟩
        · exact htaken x (h.taken x k hk)
        · exact taken_self hlt hx hacc

/-- **A handler that has slept ends.** -/
theorem Single.wake (h : K.Single S as D) (hi : as[i]? = some (e, .handled (.asleep id)))
    (hf : K.Finishes S S' id e hd) : K.Single S' (as.set i (e, .handled hd)) D := by
  have hold : (e, CallState.handled (.asleep id)) ∈ as := List.mem_of_getElem? hi
  cases hf with
  | idle hrows hnone hawake =>
    refine h.keep (hrows ▸ h.keys) (fun x k hk => ?_)
      (fun x => taken_set hi fun x hx => by simp [hnone] at hx) fun x hx => Or.inl hx
    rcases hk with ⟨r, hr, hk⟩ | ⟨e', hmem, hx⟩
    · exact Or.inl ⟨r, hrows ▸ hr, hk⟩
    · rcases List.mem_or_eq_of_mem_set hmem with hmem | heq
      · exact Or.inr ⟨e', hmem, hx⟩
      · exact absurd (CallState.handled.inj (Prod.mk.inj heq).2).symm (hawake k)
  | record st hrows hdone hacc hawake =>
    refine h.keep (hrows ▸ nodup_setWhere h.keys (K.key_set st)) (fun x k hk => ?_)
      (fun x => taken_set hi fun _ _ _ => hacc) fun x hx => Or.inl hx
    rcases hk with ⟨r', hr', hk, hx, hst⟩ | ⟨e', hmem, hx⟩
    · rw [hrows] at hr'
      obtain ⟨r, hr, rfl⟩ := mem_setWhere.mp hr'
      split_ifs at hk hx hst with he
      · -- the record of the handler: it slept on it
        have he : K.key r = id := of_decide_eq_true he
        rw [K.key_set] at hk
        rw [K.object_set] at hx
        rw [K.status_set] at hst
        refine Or.inr ⟨e, ?_, hx ▸ hdone hst r hr he⟩
        rw [← hk, he]
        exact hold
      · exact Or.inl ⟨r, hr, hk, hx, hst⟩
    · rcases List.mem_or_eq_of_mem_set hmem with hmem | heq
      · exact Or.inr ⟨e', hmem, hx⟩
      · exact absurd (CallState.handled.inj (Prod.mk.inj heq).2).symm (hawake k)

end Kind

/-! ### Steps -/

/-- What a step does to the calls, and where the rest stays as it is. -/
inductive Exchanged {P : Platform} (n n' : Net P) : NetAction P → Prop
  | app {a : NetAction P} {a' : Action (Start P) Pick} {ws : List Webhook} :
      (payflow P).step n.app a' = some n'.app → n'.provider = { n.provider with webhooks := ws } →
      attempts n' = attempts n →
      (∀ pid b, Machine.event (payflow P) n.app a' = some (.commit pid b) → a = .app a') →
      Exchanged n n' a
  | send {pid : ℕ} {e : Ext} : n'.app = n.app → n'.provider = n.provider →
      attempts n' = attempts n ++ [(e, .sent)] → Exchanged n n' (.send pid)
  | receive {i : ℕ} {id text : String} {c : ProviderCall} {hd : Handler} : n'.app = n.app →
      n.calls[i]? = some c → c.state = .sent →
      handle P n.provider id text c.request = some (n'.provider, hd) →
      attempts n' = (attempts n).set i (c.request, .handled hd) →
      Exchanged n n' (.receive i id text)
  | wake {i : ℕ} {id : String} {c : ProviderCall} {hd : Handler} : n'.app = n.app →
      n.calls[i]? = some c → c.state = .handled (.asleep id) →
      wakeHandler n.provider id c.request = some (n'.provider, hd) →
      attempts n' = (attempts n).set i (c.request, .handled hd) → Exchanged n n' (.wake i)
  | lose {k : ℕ} {ws : List Webhook} : n'.app = n.app →
      n'.provider = { n.provider with webhooks := ws } → attempts n' = attempts n →
      Exchanged n n' (.lose k)

section exchanged

variable {P : Platform} {n n' : Net P}

theorem attempts_setCall (i : ℕ) (c : ProviderCall) :
    attempts (n.setCall i c) = (attempts n).set i (c.request, c.state) :=
  List.map_set

theorem attempts_leave {i : ℕ} {c : ProviderCall} (hc : n.calls[i]? = some c)
    (client : Option ℕ) : attempts (n.setCall i ⟨client, c.request, c.state⟩) = attempts n := by
  rw [attempts_setCall]
  refine List.ext_getElem? fun j => ?_
  by_cases hji : j = i
  · subst hji
    have hlt := (List.getElem?_eq_some_iff.mp hc).1
    rw [List.getElem?_set_self (by simpa [attempts] using hlt)]
    simp [attempts, hc]
  · rw [List.getElem?_set_ne (Ne.symm hji)]

theorem stepApp_ok {n₀ : Net P} {a : Action (Start P) Pick} (hs : n₀.stepApp a = some n') :
    (payflow P).step n₀.app a = some n'.app ∧ n'.provider = n₀.provider ∧
      n'.calls = n₀.calls := by
  unfold Net.stepApp at hs
  split at hs
  · rename_i s hs'
    obtain rfl := Option.some.inj hs
    exact ⟨hs', rfl, rfl⟩
  · simp at hs

theorem exchanged_outcome {a : NetAction P} {i pid : ℕ} {e : Ext} {state : CallState}
    {out : HttpOutcome} (h : NetOk n) (hc : n.calls[i]? = some ⟨some pid, e, state⟩)
    (hs : (n.setCall i ⟨none, e, state⟩).stepApp (.step pid (.http out)) = some n') :
    Exchanged n n' a := by
  obtain ⟨hstep, hprovider, hcalls⟩ := stepApp_ok hs
  have hprovider : n'.provider = { n.provider with webhooks := n.provider.webhooks } := hprovider
  refine .app hstep hprovider ?_ fun pid' b hev => ?_
  · unfold attempts
    rw [hcalls]
    exact attempts_leave hc none
  · obtain ⟨x, st, hp, ⟨k, rfl⟩ | rfl⟩ := h.clients i _ pid hc rfl
    · simp [Machine.event, hp] at hev
    · simp [Machine.event, hp] at hev

/-- **One step**, as the calls see it. -/
theorem exchanged_of_step (h : NetOk n) {a : NetAction P} (hs : n.step a = some n') :
    Exchanged n n' a := by
  cases a with
  | app a =>
    simp only [Net.step] at hs
    split_ifs at hs
    obtain ⟨hstep, hprovider, hcalls⟩ := stepApp_ok hs
    have hprovider : n'.provider = { n.provider with webhooks := n.provider.webhooks } := hprovider
    refine .app hstep hprovider ?_ fun _ _ _ => rfl
    unfold attempts
    rw [hcalls]
  | send pid =>
    simp only [Net.step] at hs
    split at hs
    · split_ifs at hs
      obtain rfl := Option.some.inj hs
      exact .send rfl rfl (List.map_append ..)
    · simp at hs
  | receive i id text =>
    simp only [Net.step] at hs
    split at hs
    · rename_i client e hc
      split at hs
      · rename_i S hd hhandle
        obtain rfl := Option.some.inj hs
        exact .receive rfl hc rfl hhandle (attempts_setCall ..)
      · simp at hs
    · simp at hs
  | wake i =>
    simp only [Net.step] at hs
    split at hs
    · rename_i client e id hc
      split at hs
      · rename_i S hd hwake
        obtain rfl := Option.some.inj hs
        exact .wake rfl hc rfl hwake (attempts_setCall ..)
      · simp at hs
    · simp at hs
  | respond i =>
    simp only [Net.step] at hs
    split at hs
    · rename_i pid e r hc
      exact exchanged_outcome h hc hs
    · simp at hs
  | fail i out =>
    simp only [Net.step] at hs
    split at hs
    · rename_i pid e state hc
      split_ifs at hs
      exact exchanged_outcome h hc hs
    · simp at hs
  | deliver k eventId =>
    simp only [Net.step] at hs
    split at hs
    · split_ifs at hs
      obtain ⟨hstep, hprovider, hcalls⟩ := stepApp_ok hs
      refine .app hstep hprovider ?_ fun pid b hev => ?_
      · unfold attempts
        rw [hcalls]
        rfl
      · simp [Machine.event] at hev
    · simp at hs
  | deliverAgain k =>
    simp only [Net.step] at hs
    split at hs
    · split_ifs at hs
      obtain ⟨hstep, hprovider, hcalls⟩ := stepApp_ok hs
      refine .app hstep hprovider ?_ fun pid b hev => ?_
      · unfold attempts
        rw [hcalls]
        rfl
      · simp [Machine.event] at hev
    · simp at hs
  | lose k =>
    simp only [Net.step] at hs
    split at hs
    · obtain rfl := Option.some.inj hs
      exact .lose rfl rfl rfl
    · simp at hs

end exchanged

/-! ### Runs -/

/-- All processes have ended, no task waits for its delivery, and the provider has nothing to do. -/
def nothingLeft {P : Platform} (n : Net P) : Bool :=
  n.app.procs.all (fun p => !p.status.live) && n.app.world.messages.all (·.acked) &&
    n.calls.all (fun c => match c.state with | .handled (.ended _) => true | _ => false) &&
    n.provider.webhooks.all fun w => match w.state with | .over => true | _ => false

namespace Kind

variable {P : Platform} {R : Type} {K : Kind P R} {n n' : Net P}

/-- A step of the system fails nothing that counts, unless it gives up. -/
theorem Lawful.failed_step (hK : K.Lawful) (hok : NetOk n)
    (hkeys : ((K.rows n.provider).map K.key).Nodup) {a : Action (Start P) Pick} {s' : State P}
    (hs : (payflow P).step n.app a = some s')
    (hgives : ∀ pid b x, Machine.event (payflow P) n.app a = some (.commit pid b) →
      K.givesUp b = some x → K.failed n.app.db x = true ∨
        ∀ k, ¬ K.Counts n.provider (attempts n) x k) {x : Uuid} (hx : K.failed s'.db x = true) :
    K.failed n.app.db x = true ∨ ∀ k, ¬ K.Counts n.provider (attempts n) x k := by
  rcases step_commit hok.reachable hs with
    hdb | ⟨pid, pick, b, now, ws, r, rfl, ⟨y, ls, k, hp⟩, hreq, hdoes, hdb⟩
  · exact Or.inl (hdb ▸ hx)
  · have hopen := hok.safe _ (List.mem_of_getElem? hp)
    rw [hdb] at hx
    rcases hK.fails hok hopen.1 hreq hdoes hkeys hx with hx | hx | hx
    · exact Or.inl hx
    · exact hgives pid b x (by simp [Machine.event, hp]) hx
    · exact Or.inr hx

/-- **One careful step.** -/
theorem Lawful.single_step (hK : K.Lawful) (hok : NetOk n)
    (h : K.Single n.provider (attempts n) n.app.db) {a : NetAction P} (hc : K.careful n a = true)
    (hs : n.step a = some n') : K.Single n'.provider (attempts n') n'.app.db := by
  have hfree : ∀ {x}, K.taken (attempts n) x = false →
      ∀ k, ¬ K.Counts n.provider (attempts n) x k := by
    intro x hx k hk
    simp [h.taken x k hk] at hx
  cases exchanged_of_step hok hs with
  | @app _ a' ws hstep hprovider hattempts hcommit =>
    have hrows : K.rows n'.provider = K.rows n.provider := by
      rw [hprovider]
      exact hK.webhooks _ _
    have hcounts : ∀ x k, K.Counts n'.provider (attempts n) x k →
        K.Counts n.provider (attempts n) x k := by
      intro x k hk
      unfold Counts at hk ⊢
      rwa [hrows] at hk
    rw [hattempts]
    refine h.keep (hrows ▸ h.keys) hcounts (fun _ hx => hx) fun x hx => ?_
    refine hK.failed_step hok h.keys hstep (fun pid b x hev hgives => ?_) hx
    obtain rfl := hcommit pid b hev
    simp only [careful, hev, hgives, Bool.or_eq_true, Bool.not_eq_true'] at hc
    exact hc.imp_right hfree
  | send happ hprovider hattempts =>
    rw [happ, hprovider, hattempts]
    refine h.keep h.keys (fun x k hk => ?_) (fun x hx => ?_) fun x hx => Or.inl hx
    · rcases hk with hk | ⟨e', hmem, hx⟩
      · exact Or.inl hk
      · rcases List.mem_append.mp hmem with hmem | hmem
        · exact Or.inr ⟨e', hmem, hx⟩
        · simp at hmem
    · unfold taken at hx ⊢
      rw [List.any_append, hx, Bool.true_or]
  | @receive i id text c hd happ hcall hsent hhandle hattempts =>
    have hi : (attempts n)[i]? = some (c.request, .sent) := by simp [attempts, hcall, hsent]
    rw [happ, hattempts]
    refine h.receive hi (hK.begins hhandle) fun x hwants hadmits => ?_
    simpa [careful, hcall, hwants, hadmits] using hc
  | @wake i id c hd happ hcall hsleeps hwake hattempts =>
    have hi : (attempts n)[i]? = some (c.request, .handled (.asleep id)) := by
      simp [attempts, hcall, hsleeps]
    rw [happ, hattempts]
    exact h.wake hi (hK.finishes h.keys (hok.sleeping i c id hcall hsleeps) hwake)
  | lose happ hprovider hattempts =>
    have hrows : K.rows n'.provider = K.rows n.provider := by
      rw [hprovider]
      exact hK.webhooks _ _
    rw [happ, hattempts]
    refine h.keep (hrows ▸ h.keys) (fun x k hk => ?_) (fun _ hx => hx) fun x hx => Or.inl hx
    unfold Counts at hk ⊢
    rwa [hrows] at hk

/-- **A careful run**: no more than one attempt counts. -/
theorem Lawful.single_of_reaches (hK : K.Lawful) (hP : PlatformLaws P)
    (hrows : K.rows ⟨[], [], []⟩ = [])
    (h : Reaches Net.step (fun n a => K.careful n a = true) (Net.init P) n) :
    K.Single n.provider (attempts n) n.app.db := by
  have hboth := h.invariant (I := fun n => NetOk n ∧ K.Single n.provider (attempts n) n.app.db) ?_
    fun hI hc hs => ⟨netOk_step hP hI.1 hs, hK.single_step hI.1 hI.2 hc hs⟩
  · exact hboth.2
  · have hnone : ∀ x k, ¬ K.Counts (Net.init P).provider (attempts (Net.init P)) x k := by
      intro x k hk
      simp [Counts, Net.init, attempts, hrows] at hk
    refine ⟨netOk_init P, ⟨by simp [Net.init, hrows], ⟨fun x k _ hk => absurd hk (hnone x k),
      fun x k _ => hnone x k⟩, fun x k hk => absurd hk (hnone x k)⟩⟩

theorem Single.length_done {S : Provider} {as : List (Ext × CallState)} {D : Db}
    (h : K.Single S as D) (x : Uuid) : (K.done S x).length ≤ 1 := by
  have hkey : ∀ r ∈ K.done S x, K.Counts S as x (K.key r) := by
    intro r hr
    obtain ⟨hr, hsel⟩ := List.mem_filter.mp hr
    exact Or.inl ⟨r, hr, rfl, of_decide_eq_true hsel⟩
  have hsub : (K.done S x).Sublist (K.rows S) := List.filter_sublist
  have hnodup : ((K.done S x).map K.key).Nodup := h.keys.sublist (hsub.map K.key)
  match hl : K.done S x with
  | [] => simp
  | [r] => simp
  | r :: r' :: l =>
    have he := h.alone.once x _ _ (hkey r (by simp [hl])) (hkey r' (by simp [hl]))
    simp [hl, he] at hnodup

theorem Single.done_failed {S : Provider} {as : List (Ext × CallState)} {D : Db}
    (h : K.Single S as D) {x : Uuid} (hx : K.failed D x = true) : K.done S x = [] := by
  refine List.filter_eq_nil_iff.mpr fun r hr hsel => ?_
  exact h.alone.none x _ hx (Or.inl ⟨r, hr, rfl, of_decide_eq_true hsel⟩)

end Kind

end Payflow.Network
