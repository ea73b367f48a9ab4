import Payflow.Safety.PaymentIdempotency
import Payflow.Spec.Enqueue
import Payflow.Spec.RefundCreation

/-! # What is acknowledged is scheduled

A row is committed before its task is enqueued, and a replay enqueues nothing: a task that is not
enqueued by the call that has made the row is never enqueued. As long as every such call gets to its
`.delay`, the broker takes the message, and no replay is answered before, every payment and every
refund that a call has been answered with has its task (`Scheduled`). -/

namespace Payflow.Safety

open Payflow.Lib Payflow.Model Payflow.Spec

variable {P : Platform}

/-- The row that a call is answered with. -/
def answerRow : Start P → Ans → Option Made
  | .createPayment _, .payment r => some (.payment r.payment.id)
  | .createRefund _, .refund r => some (.refund r.refund.id)
  | _, _ => none

/-- A task for the row has been enqueued. -/
def Enqueued (w : World) (made : Made) : Prop :=
  ∃ i task, taskOf w i = some task ∧ worksOn made task = true

/-- The step kills no call that owes a task, the broker refuses no `.delay`, and no call is answered
with a row whose task another one owes. -/
structure Orderly (s : State P) (a : Action (Start P) Pick) : Prop where
  kill : ∀ (i : ℕ) x st, a = .kill i → s.procs[i]? = some ⟨x, st⟩ → owed st = none
  delay : ∀ (i : ℕ) pick x task k, a = .step i pick →
    s.procs[i]? = some ⟨x, .run (.op (.ext (.delay task)) k)⟩ → pick ≠ .broker false
  answer : ∀ (i : ℕ) pick x ans made (j : ℕ) y st task, a = .step i pick →
    s.procs[i]? = some ⟨x, .run (.pure ans)⟩ → answerRow x ans = some made →
    s.procs[j]? = some ⟨y, st⟩ → owed st = some task → worksOn made task = false

/-- Every row has its task or a call that owes it, and every answer is about a row with a task. -/
structure Scheduled (s : State P) (g : ℕ → Option Made) : Prop where
  rows : ∀ made, made.stored s.db = true → Enqueued s.world made ∨
    ∃ (i : ℕ) (x : Start P) (p : Proc Ans), s.procs[i]? = some ⟨x, .run p⟩ ∧ g i = some made
  answers : ∀ (i : ℕ) x ans made, s.procs[i]? = some ⟨x, .done (.ok ans)⟩ →
    answerRow x ans = some made →
    Enqueued s.world made

/-! ### The pieces of a step -/

theorem Enqueued.ext {pid : ℕ} {pick : Pick} {w w' : World} {e : Ext} {r : ERes e} {made : Made}
    (hw : ext pid pick w e = some (r, w')) (h : Enqueued w made) : Enqueued w' made := by
  obtain ⟨i, task, hi, ht⟩ := h
  exact ⟨i, task, taskOf_ext hw hi, ht⟩

theorem Enqueued.finish (x : Start P) (out : Except Exn Ans) {w : World} {made : Made}
    (h : Enqueued w made) : Enqueued (finish P x out w) made := by
  obtain ⟨i, task, hi, ht⟩ := h
  exact ⟨i, task, taskOf_finish.trans hi, ht⟩

theorem due_of_does {b : Block} {now : ℕ} {D : Db} {ws : List Write} {r : BRes b}
    (hreq : Requires b D) (h : Does P b now D ws r) {made : Made}
    (hs : made.stored (store.applyAll D ws) = true) : made.stored D = true ∨
      dueProtocol.next none (.txn b) (.ok r : Except Exn (BRes b)) = some made := by
  cases made with
  | payment p =>
    obtain ⟨row', hp'⟩ := Option.isSome_iff_exists.mp hs
    by_cases hb : MakesPayment b
    · cases b with
      | createIdempotentPayment m k hash u a c =>
        rcases h with ⟨id, event, c', -, hid, -, -, rfl, rfl⟩ | ⟨row, -, -, -, rfl⟩
        · by_cases hne : id = p
          · subst hne
            exact Or.inr rfl
          · refine Or.inl ?_
            have hsame : (store.applyAll D [.insertPayment (newPayment now id m k hash u a c'),
                .insertPaymentEvent ⟨event, id, .paymentCreated, none, .created, .obj [],
                  now⟩]).payment? p =
                D.payment? p := payment?_insert hne
            rw [hsame] at hp'
            exact Option.isSome_iff_exists.mpr ⟨row', hp'⟩
        · exact Or.inl hs
      | _ => exact hb.elim
    · obtain ⟨row, hp⟩ := payment_before hreq h hb hp'
      exact Or.inl (Option.isSome_iff_exists.mpr ⟨row, hp⟩)
  | refund q =>
    obtain ⟨row', hq'⟩ := Option.isSome_iff_exists.mp hs
    by_cases hb : MakesRefund b
    · cases b with
      | createRefund p m k a =>
        obtain ⟨row, id, c, e₁, e₂, e₃, -, hid, -, -, -, -, -, -, -, rfl, rfl⟩ | ⟨_, -, -, rfl⟩ := h
        · by_cases hne : id = q
          · subst hne
            exact Or.inr rfl
          · refine Or.inl ?_
            have hsame : (store.applyAll D (createRefundWrites now row
                (newRefund now id p m k a c) e₁ e₂ e₃)).refund? q = D.refund? q :=
              refund?_insert hne
            rw [hsame] at hq'
            exact Option.isSome_iff_exists.mpr ⟨row', hq'⟩
        · exact Or.inl hs
      | _ => exact hb.elim
    · obtain ⟨row, hq⟩ := refund_before hreq h hb hq'
      exact Or.inl (Option.isSome_iff_exists.mpr ⟨row, hq⟩)

theorem stored_of_answer {s : State P} (h : Reachable P s) {i : ℕ} {x : Start P} {ans : Ans}
    (hp : s.procs[i]? = some ⟨x, .run (.pure ans)⟩) {made : Made}
    (ha : answerRow x ans = some made) : made.stored s.db = true := by
  have hp' := Machine.erase_procs hp
  cases x with
  | createPayment call =>
    obtain ⟨g, hF, hmakers, -⟩ := Creation.creating_of_reachable (paymentCreation_lawful P)
      (paymentCreation_discipline P) (fun _ => rfl) h
    obtain ⟨role, hrole, hreturns⟩ := hF _ _ _ hp'
    obtain rfl := Option.some.inj hrole
    have hreturns : CallReturns (g i) ans := hreturns
    cases ans with
    | payment r =>
      obtain rfl := Option.some.inj ha
      rcases hreturns with ⟨hg, -⟩ | ⟨hg, -⟩
      · obtain ⟨-, -, -, row, hrow, -⟩ := hmakers.winner i _ (Or.inr hg)
        exact Option.isSome_iff_exists.mpr ⟨row, hrow⟩
      · obtain ⟨-, -, -, row, hrow, -⟩ := hmakers.same i _ hg
        exact Option.isSome_iff_exists.mpr ⟨row, hrow⟩
    | _ => exact hreturns.elim
  | createRefund call =>
    obtain ⟨g, hF, hmakers, -⟩ := Creation.creating_of_reachable (refundCreation_lawful P)
      (refundCreation_discipline P) (fun _ => rfl) h
    obtain ⟨role, hrole, hreturns⟩ := hF _ _ _ hp'
    obtain rfl := Option.some.inj hrole
    have hreturns : RefundCallReturns (g i) ans := hreturns
    cases ans with
    | refund r =>
      obtain rfl := Option.some.inj ha
      rcases hreturns with ⟨hg, -⟩ | ⟨hg, -⟩
      · obtain ⟨-, -, -, row, hrow, -⟩ := hmakers.winner i _ (Or.inr hg)
        exact Option.isSome_iff_exists.mpr ⟨row, hrow⟩
      · obtain ⟨-, -, -, row, hrow, -⟩ := hmakers.same i _ hg
        exact Option.isSome_iff_exists.mpr ⟨row, hrow⟩
    | _ => exact hreturns.elim
  | _ => cases ans <;> simp [answerRow] at ha

theorem owed_of_history {s : State P} {g : ℕ → Option Made}
    (hF : Machine.Followed (dueDiscipline P) (Machine.erase (payflow P) s) g) {i : ℕ} {x : Start P}
    {p : Proc Ans} (hp : (Machine.erase (payflow P) s).procs[i]? = some ⟨x, .run p⟩) {made : Made}
    (hg : g i = some made) : ∃ task, nextDelay p = some task ∧ worksOn made task = true := by
  obtain ⟨role, -, hagrees⟩ := hF _ _ _ hp
  have hfollows : p.Follows dueProtocol (fun due _ => due = none) (fun due _ => due = none) (g i) :=
    hagrees
  rw [hg] at hfollows
  exact owed_of_follows (by simp) (by simp) hfollows

theorem owed_erase (st : Status Write Lock Stmt Block Ext Exn Ans SRes BRes ERes) :
    owed st.erase = owed st := by
  cases st <;> rfl

theorem live_of_erase {s : State P} {i : ℕ} {x : Start P} {p : Proc Ans}
    (h : (Machine.erase (payflow P) s).procs[i]? = some ⟨x, .run p⟩) :
    ∃ st, s.procs[i]? = some ⟨x, st⟩ ∧ owed st = nextDelay p := by
  simp only [Machine.erase, List.getElem?_map, Option.map_eq_some_iff] at h
  obtain ⟨⟨y, st⟩, hst, he⟩ := h
  obtain ⟨rfl, hrun⟩ := Machine.Proc.mk.inj he
  exact ⟨st, hst, (owed_erase st).symm.trans (congrArg owed hrun)⟩

theorem enqueued_of_delay {s s' : State P} {pid : ℕ} {pick : Pick} {x : Start P} {task : Task}
    {k : Call.Res BRes ERes Exn (.ext (.delay task)) → Proc Ans}
    (hp : s.procs[pid]? = some ⟨x, .run (.op (.ext (.delay task)) k)⟩)
    (hpick : pick ≠ .broker false)
    (hs : (payflow P).step s (.step pid pick) = some s') :
    s'.world = ⟨s.world.messages ++ [⟨task, 0, pid, false⟩]⟩ := by
  simp only [Machine.step, hp, Machine.advance] at hs
  cases pick with
  | broker up =>
    cases up with
    | false => exact absurd rfl hpick
    | true =>
      obtain rfl := Option.some.inj hs
      rfl
  | _ => simp [payflow, Model.ext] at hs

/-! ### One step -/

section step

variable {t : State P} {g : ℕ → Option Made}

theorem Scheduled.move (h : Scheduled t g) {pid : ℕ} {x : Start P} {p p' : Proc Ans}
    {due : Option Made} {D : Db} {w : World} (hp : t.procs[pid]? = some ⟨x, .run p⟩)
    (hrows : ∀ made, made.stored D = true → made.stored t.db = true ∨ due = some made)
    (hdue : ∀ made, g pid = some made → due = some made ∨ Enqueued w made)
    (hworld : ∀ made, Enqueued t.world made → Enqueued w made) :
    Scheduled { t with db := D, world := w, procs := t.procs.set pid ⟨x, .run p'⟩ }
      (Function.update g pid due) := by
  have hlt := (List.getElem?_eq_some_iff.mp hp).1
  constructor
  · intro made hstored
    rcases hrows made hstored with hold | hnew
    · rcases h.rows made hold with hdone | ⟨i, y, q, hq, hg⟩
      · exact Or.inl (hworld made hdone)
      · by_cases hi : i = pid
        · subst hi
          rcases hdue made hg with hd | hw
          · exact Or.inr ⟨i, x, p', List.getElem?_set_self hlt, by rw [Function.update_self, hd]⟩
          · exact Or.inl hw
        · refine Or.inr ⟨i, y, q, ?_, ?_⟩
          · show (t.procs.set pid _)[i]? = _
            rw [List.getElem?_set_ne (Ne.symm hi), hq]
          · rw [Function.update_of_ne hi, hg]
    · exact Or.inr ⟨pid, x, p', List.getElem?_set_self hlt, by rw [Function.update_self, hnew]⟩
  · intro i y ans made hi ha
    have hi : (t.procs.set pid ⟨x, .run p'⟩)[i]? = some ⟨y, .done (.ok ans)⟩ := hi
    rw [List.getElem?_set] at hi
    split_ifs at hi with hpid
    · exact absurd (Machine.Proc.mk.inj (Option.some.inj hi)).2 (by simp)
    · exact hworld made (h.answers i y ans made hi ha)

theorem Scheduled.stop (h : Scheduled t g) {pid : ℕ} {x : Start P}
    {st' : Status Write Lock Stmt Block Ext Exn Ans SRes BRes ERes} {w : World}
    (hdue : ∀ y p, t.procs[pid]? = some ⟨y, .run p⟩ → g pid = none)
    (hworld : ∀ made, Enqueued t.world made → Enqueued w made)
    (hdone : ∀ ans made, st' = .done (.ok ans) → answerRow x ans = some made → Enqueued w made) :
    Scheduled { t with world := w, procs := t.procs.set pid ⟨x, st'⟩ } g := by
  constructor
  · intro made hstored
    rcases h.rows made hstored with hdone | ⟨i, y, q, hq, hg⟩
    · exact Or.inl (hworld made hdone)
    · have hi : i ≠ pid := by
        rintro rfl
        simp [hdue y q hq] at hg
      refine Or.inr ⟨i, y, q, ?_, hg⟩
      show (t.procs.set pid _)[i]? = _
      rw [List.getElem?_set_ne (Ne.symm hi), hq]
  · intro i y ans made hi ha
    have hi : (t.procs.set pid ⟨x, st'⟩)[i]? = some ⟨y, .done (.ok ans)⟩ := hi
    rw [List.getElem?_set] at hi
    split_ifs at hi with hpid hlt
    · obtain ⟨rfl, hst⟩ := Machine.Proc.mk.inj (Option.some.inj hi)
      exact hdone ans made hst ha
    · exact hworld made (h.answers i y ans made hi ha)

theorem Scheduled.append (h : Scheduled t g) {x : Start P} {p : Proc Ans} :
    Scheduled { t with procs := t.procs ++ [⟨x, .run p⟩] }
      (Function.update g t.procs.length none) := by
  constructor
  · intro made hstored
    rcases h.rows made hstored with hdone | ⟨i, y, q, hq, hg⟩
    · exact Or.inl hdone
    · have hlt := (List.getElem?_eq_some_iff.mp hq).1
      refine Or.inr ⟨i, y, q, ?_, ?_⟩
      · show (t.procs ++ [_])[i]? = _
        rw [List.getElem?_append_left hlt, hq]
      · rw [Function.update_of_ne (Nat.ne_of_lt hlt), hg]
  · intro i y ans made hi ha
    have hi : (t.procs ++ [⟨x, .run p⟩])[i]? = some ⟨y, .done (.ok ans)⟩ := hi
    rw [List.getElem?_append] at hi
    split_ifs at hi with hlt
    · exact h.answers i y ans made hi ha
    · exact absurd (Machine.Proc.mk.inj (List.mem_singleton.mp (List.mem_of_getElem? hi))).2 (by simp)

end step

/-- **One step** that meets the condition. -/
theorem scheduled_step {s s' : State P} {a : Action (Start P) Pick} {g g' : ℕ → Option Made}
    {ev : Event Block Ext (Start P)} (hr : Reachable P s)
    (h : Scheduled (Machine.erase (payflow P) s) g)
    (hF : Machine.Followed (dueDiscipline P) (Machine.erase (payflow P) s) g) (hC : Orderly s a)
    (hs : (payflow P).step s a = some s') (hev : Machine.event (payflow P) s a = some ev)
    (hg : Machine.Guided (dueDiscipline P) rely (contract P) (Machine.erase (payflow P) s) g ev
      (Machine.erase (payflow P) s') g') : Scheduled (Machine.erase (payflow P) s') g' := by
  have howes : ∀ {i x p made}, (Machine.erase (payflow P) s).procs[i]? = some ⟨x, .run p⟩ →
      g i = some made → ∃ task, nextDelay p = some task ∧ worksOn made task = true :=
    fun hp hg => owed_of_history hF hp hg
  have hdb : (Machine.erase (payflow P) s).db = s.db := rfl
  have hw : (Machine.erase (payflow P) s').world = s'.world := rfl
  generalize ht : Machine.erase (payflow P) s = t at h hF hg howes hdb
  generalize ht' : Machine.erase (payflow P) s' = t' at hg hw ⊢
  cases hg with
  | start hp => exact h.append
  | @commit pid x b k now ws i r hp hrole hallow hnow hinv hpre hpost =>
    have hnone : g pid = none := by
      cases hd : g pid with
      | none => rfl
      | some made =>
        rw [hd] at hallow
        exact hallow.elim
    refine h.move hp (fun made hstored => ?_) (fun made hd => ?_) fun made hd => hd
    · rw [hnone]
      exact due_of_does hpre hpost hstored
    · simp [hnone] at hd
  | @rollback pid x b k D₀ e i hp hrole hallow hle hinv hpre hfail =>
    have hnone : g pid = none := by
      cases hd : g pid with
      | none => rfl
      | some made =>
        rw [hd] at hallow
        exact hallow.elim
    refine h.move hp (fun made hstored => Or.inl hstored) (fun made hd => ?_) fun made hd => hd
    simp [hnone] at hd
  | @ext pid pick x e k w i r hp hrole hallow hx =>
    refine h.move hp (fun made hstored => Or.inl hstored) (fun made hd => ?_) fun made hd =>
      hd.ext hx
    rw [hd] at hallow
    cases e with
    | delay task =>
      have hp' := Machine.procs_of_erase (ht ▸ hp) (by simp)
      obtain ⟨pick', rfl⟩ := Machine.action_of_event.1 hev
      have hworld := enqueued_of_delay hp' (hC.delay _ _ _ _ _ rfl hp') hs
      refine Or.inr ⟨s.world.messages.length, task, ?_, hallow⟩
      have hw : w = s'.world := hw
      rw [hw, hworld]
      simp [taskOf]
    | redisRelease key token =>
      rw [hd]
      exact Or.inl rfl
    | _ => exact hallow.elim
  | @finishOk pid x ans i hp hrole hret =>
    have hnone : g pid = none := hret
    have hp' := Machine.procs_of_erase (ht ▸ hp) (by simp)
    obtain ⟨pick, rfl⟩ := Machine.action_of_event.2.1 hev
    refine h.stop (fun _ _ _ => hnone) (fun made hd => hd.finish x (.ok ans))
      fun ans' made hans ha => ?_
    obtain rfl : ans = ans' := by simpa using hans
    refine Enqueued.finish x (.ok ans) ?_
    rcases h.rows made (hdb ▸ stored_of_answer hr hp' ha) with hd | ⟨j, y, q, hq, hgj⟩
    · exact hd
    · obtain ⟨task, hnext, hworks⟩ := howes hq hgj
      obtain ⟨st, hst, howed⟩ := live_of_erase (ht ▸ hq)
      have hno := hC.answer _ _ _ _ _ _ _ _ _ rfl hp' ha hst (howed.trans hnext)
      simp [hworks] at hno
  | @finishError pid x e i hp hrole hraise =>
    have hnone : g pid = none := hraise
    exact h.stop (fun _ _ _ => hnone) (fun made hd => hd.finish x (.error e)) (by simp)
  | @kill pid x st hp hlive =>
    obtain rfl := Machine.action_of_event.2.2 hev
    refine h.stop (fun y p hp' => ?_) (fun made hd => hd) (by simp)
    cases hd : g pid with
    | none => rfl
    | some made =>
      obtain ⟨task, hnext, -⟩ := howes hp' hd
      obtain ⟨st', hst, howed⟩ := live_of_erase (ht ▸ hp')
      have hno := hC.kill _ _ _ rfl hst
      rw [howed, hnext] at hno
      simp at hno
  | tick => exact ⟨h.rows, h.answers⟩

theorem scheduled_of_orderly {s : State P}
    (h : Machine.ReachableBy (payflow P) Orderly (init P) s) :
    ∃ g, Scheduled (Machine.erase (payflow P) s) g := by
  have hinit : Scheduled (Machine.erase (payflow P) (init P)) fun _ => none := by
    constructor
    · intro made hs
      cases made <;> simp [Made.stored, Machine.erase, init, Db.payment?, Db.refund?,
        Db.empty] at hs
    · simp [Machine.erase, init]
  obtain ⟨g, -, hg⟩ := h.guidedBy (fulfils P) (due_lawful P) (J := Scheduled) (good_init P) rfl hinit
    fun {_ _ _ _ _ _} hr h hF hC hs hev hguided =>
      scheduled_step (hr.imp fun _ _ _ => trivial) h hF hC hs hev hguided
  exact ⟨g, hg⟩

/-- The row that the process `i` has been answered with, if it is a call that got a 2xx. -/
def answeredRow (s : State P) (i : ℕ) : Option Made :=
  match s.procs[i]? with
  | some ⟨x, .done (.ok ans)⟩ => answerRow x ans
  | _ => none

/-- The row is `CREATED`. -/
def Made.created (D : Db) : Made → Bool
  | .payment p => (D.payment? p).any fun row => row.status = .created
  | .refund q => (D.refund? q).any fun row => row.status = .created

/-- Every row that is `CREATED` and that some call has been answered with has its task. -/
def AcknowledgedScheduled (s : State P) : Prop :=
  ∀ i made, answeredRow s i = some made → Made.created s.db made = true → Enqueued s.world made

/-- **Acknowledged work is scheduled**, in every run whose steps are orderly. -/
theorem acknowledged_scheduled {s : State P}
    (h : Machine.ReachableBy (payflow P) Orderly (init P) s) : AcknowledgedScheduled s := by
  intro i made ha _
  obtain ⟨g, hg⟩ := scheduled_of_orderly h
  unfold answeredRow at ha
  split at ha
  · rename_i x ans hp
    exact hg.answers i x ans made (Machine.erase_procs hp) ha
  · simp at ha

/-! ### Runs -/

/-- `Orderly`, computed. -/
def orderlyCheck (s : State P) : Action (Start P) Pick → Bool
  | .kill i => s.procs[i]?.all fun p => (owed p.status).isNone
  | .step i pick =>
    match s.procs[i]?, pick with
    | some ⟨_, .run (.op (.ext (.delay _)) _)⟩, .broker false => false
    | some ⟨x, .run (.pure ans)⟩, _ =>
      (answerRow x ans).all fun made => s.procs.all fun p => (owed p.status).all fun task =>
        !worksOn made task
    | _, _ => true
  | _ => true

theorem orderly_of_check {s : State P} {a : Action (Start P) Pick} (h : orderlyCheck s a = true) :
    Orderly s a where
  kill := by
    rintro i x st rfl hp
    simpa [orderlyCheck, hp] using h
  delay := by
    rintro i pick x task k rfl hp rfl
    simp [orderlyCheck, hp] at h
  answer := by
    rintro i pick x ans made j y st task rfl hp ha hj howed
    simp only [orderlyCheck, hp, ha, Option.all_some, List.all_eq_true] at h
    simpa [howed] using h _ (List.mem_of_getElem? hj)

/-- Both answers of `repeatedPayment` are about a payment that is scheduled. -/
theorem acknowledged_scheduled_repeated : ∃ s : State examplePlatform,
    ([answeredRow s 0, answeredRow s 1] = [some (.payment (exampleUuid 1)), some (.payment (exampleUuid 1))] ∧
      Made.created s.db (.payment (exampleUuid 1)) = true) ∧ AcknowledgedScheduled s := by
  have h : ((payflow examplePlatform).runWhen orderlyCheck (init _) repeatedPayment).map (fun s =>
      ([answeredRow s 0, answeredRow s 1], Made.created s.db (.payment (exampleUuid 1)))) =
      some ([some (.payment (exampleUuid 1)), some (.payment (exampleUuid 1))], true) := by
    decide +kernel
  obtain ⟨s, hs, h⟩ := Option.map_eq_some_iff.mp h
  exact ⟨s, Prod.mk.inj h,
    acknowledged_scheduled (.runWhen (fun _ _ => orderly_of_check) .refl hs)⟩

/-- The broker refuses the message of a new payment, and the client asks again. -/
def refusedDelay : List Act :=
  (createPaymentScript 0 1).dropLast.dropLast ++ [.step 0 (.broker false)] ++ quiet 0 1 ++
    [.start (.createPayment examplePayment)] ++ draw 1 [4] ++ [.step 1 (.redis (some true))] ++
    quiet 1 1 ++ draw 1 [5] ++ quiet 1 3 ++ [.step 1 (.redis (some true))] ++ quiet 1 1

/-- The second answer is 200, and nothing is scheduled. -/
theorem acknowledged_not_scheduled : ∃ s : State examplePlatform, Reachable examplePlatform s ∧
    ¬ AcknowledgedScheduled s := by
  have h : ((payflow examplePlatform).run (init _) refusedDelay).map (fun s =>
      (answeredRow s 1, Made.created s.db (.payment (exampleUuid 1)), s.world.messages.length)) =
      some (some (.payment (exampleUuid 1)), true, 0) := by
    decide +kernel
  obtain ⟨s, hs, h⟩ := Option.map_eq_some_iff.mp h
  obtain ⟨ha, hc⟩ := Prod.mk.inj h
  obtain ⟨hc, hm⟩ := Prod.mk.inj hc
  refine ⟨s, .run hs, fun hall => ?_⟩
  obtain ⟨i, task, hi, -⟩ := hall 1 _ ha hc
  have hnil := List.eq_nil_of_length_eq_zero hm
  simp [taskOf, hnil] at hi

end Payflow.Safety
