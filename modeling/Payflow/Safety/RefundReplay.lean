import Payflow.Safety.RefundIdempotency
import Payflow.Spec.RefundLookup

/-! # Concurrent refund requests

A request that overlaps the one that makes the refund of its key, or comes after it, is
answered with that refund exactly if it looks its key up after the refund has been committed.
The lookup takes no lock: a request that has looked before, and then waits for the payment, is
refused or fails. -/

namespace Payflow.Safety

open Payflow.Lib Payflow.Model Payflow.Spec

variable {P : Platform} {call : CreateRefund} {s s₀ s₁ s₂ s₃ : State P} {w : ℕ} {refund : Refund}

/-- There is a refund with the key of the call. -/
def KeyStored (D : Db) (call : CreateRefund) : Prop :=
  ∃ row, D.refundByKey? call.merchantId call.idempotencyKey = some row

theorem KeyStored.later {D D' : Db} (h : KeyStored D call) (hle : Grown D D') :
    KeyStored D' call := by
  obtain ⟨row, hrow⟩ := h
  obtain ⟨row', hrow', -⟩ := hle.refundByKey hrow
  exact ⟨row', hrow'⟩

/-- A call that commits a new refund has found none before, and stores it. -/
theorem keyStored_of_commit {pid : ℕ} {row : Refund} {ws : List Write} {ls : List Lock} {now : ℕ}
    (hg : Machine.Good (payflow P) rely (contract P) s)
    (hp : s.procs[pid]? = some ⟨.createRefund call,
      inRefundTxn call ⟨.pure (row, false), ws, ls, now⟩⟩) :
    ¬ KeyStored s.db call ∧ KeyStored (store.applyAll s.db ws) call := by
  have hopen := hg.status _ (List.mem_of_getElem? hp)
  obtain ⟨-, hpost, -⟩ := Machine.OpenOk.commit hopen
  rcases hpost with ⟨prow, id, c, e₁, e₂, e₃, hnone, -, -, -, -, -, -, -, -, hr, rfl⟩ |
    ⟨old, -, hr, -⟩
  · obtain ⟨rfl, -⟩ := Prod.mk.inj hr
    refine ⟨?_, newRefund now id call.paymentId call.merchantId call.idempotencyKey call.amountCents c,
      ?_⟩
    · rintro ⟨old, hold⟩
      simp [hnone] at hold
    · unfold Db.refundByKey? at hnone ⊢
      show List.find? _ (s.db.refunds ++ [_]) = _
      rw [List.find?_append, hnone]
      simp [newRefund]
  · simp at hr

/-- **A call** has its key stored, or has not looked it up, or has found nothing. -/
theorem local_lookup (call : CreateRefund) : Machine.Local (payflow P) rely (contract P)
    fun x D st => x = .createRefund call → KeyStored D call ∨ Pending call st ∨ Missed call st where
  later := by
    intro x D D' st hle h hx
    rcases h hx with hkey | h
    · exact Or.inl (hkey.later hle.toGrown)
    · exact Or.inr h
  own := by
    rintro s pid pick x st db w st' hg hp h hle hadv rfl
    rcases h rfl with hkey | hpending | hmissed
    · exact Or.inl (hkey.later hle.toGrown)
    · obtain ⟨rfl, ⟨-, hpending⟩ | ⟨-, hmissed⟩ | ⟨row, hrow, -, -⟩⟩ :=
        pending_advance hpending hadv
      · exact Or.inr (Or.inl hpending)
      · exact Or.inr (Or.inr hmissed)
      · exact Or.inl ⟨row, hrow⟩
    · rcases missed_advance hmissed hadv with ⟨-, hmissed⟩ | ⟨row, ws, ls, now, rfl, rfl, -⟩
      · exact Or.inr (Or.inr hmissed)
      · exact Or.inl (keyStored_of_commit hg hp).2
  killed _ _ := Or.inr (Or.inr .killed)

/-- A call that has found nothing makes nothing any more when its key is stored. -/
theorem local_missed (call : CreateRefund) : Machine.Local (payflow P) rely (contract P)
    fun x D st => x = .createRefund call → KeyStored D call ∧ Missed call st where
  later := by
    intro x D D' st hle h hx
    obtain ⟨hkey, hmissed⟩ := h hx
    exact ⟨hkey.later hle.toGrown, hmissed⟩
  own := by
    rintro s pid pick x st db w st' hg hp h hle hadv rfl
    obtain ⟨hkey, hmissed⟩ := h rfl
    refine ⟨hkey.later hle.toGrown, ?_⟩
    rcases missed_advance hmissed hadv with ⟨-, hmissed⟩ | ⟨row, ws, ls, now, rfl, rfl, -⟩
    · exact hmissed
    · exact absurd hkey (keyStored_of_commit hg hp).1
  killed h hx := ⟨(h hx).1, .killed⟩

/-- There is a refund with the key of the call, and it has the id. -/
def KeyHas (D : Db) (call : CreateRefund) (id : Uuid) : Prop :=
  ∃ row, D.refundByKey? call.merchantId call.idempotencyKey = some row ∧ row.id = id

theorem KeyHas.later {D D' : Db} {id : Uuid} (h : KeyHas D call id) (hle : Grown D D') :
    KeyHas D' call id := by
  obtain ⟨row, hrow, hid⟩ := h
  obtain ⟨row', hrow', hle'⟩ := hle.refundByKey hrow
  exact ⟨row', hrow', hle'.id_eq.trans hid⟩

/-- A call that looks its key up when the refund is stored answers with it. -/
theorem local_found (call : CreateRefund) (id : Uuid) :
    Machine.Local (payflow P) rely (contract P) fun x D st => x = .createRefund call →
      KeyHas D call id ∧ (Pending call st ∨ ∃ row, row.id = id ∧ Found call row st) where
  later := by
    intro x D D' st hle h hx
    obtain ⟨hkey, hst⟩ := h hx
    exact ⟨hkey.later hle.toGrown, hst⟩
  own := by
    rintro s pid pick x st db w st' hg hp h hle hadv rfl
    obtain ⟨hkey, hst⟩ := h rfl
    refine ⟨hkey.later hle.toGrown, ?_⟩
    obtain ⟨row, hrow, hid⟩ := hkey
    rcases hst with hpending | ⟨row₁, hid₁, hfound⟩
    · obtain ⟨rfl, ⟨-, hpending⟩ | ⟨hnone, -⟩ | ⟨row₂, hrow₂, -, hfound⟩⟩ :=
        pending_advance hpending hadv
      · exact Or.inl hpending
      · simp [hrow] at hnone
      · obtain rfl := Option.some.inj (hrow.symm.trans hrow₂)
        exact Or.inr ⟨row, hid, hfound⟩
    · exact Or.inr ⟨row₁, hid₁, found_advance hfound hadv⟩
  killed h hx := by
    obtain ⟨⟨row, hrow, hid⟩, -⟩ := h hx
    exact ⟨⟨row, hrow, hid⟩, Or.inr ⟨row, hid, .killed⟩⟩

/-- A run in which the process `w` makes the refund of a call: it has not looked the key up in `s₀`,
and its step from `s₁` to `s₂` stores the refund; the run ends in `s₃`. -/
structure RefundRun (s₀ s₁ s₂ s₃ : State P) (call : CreateRefund) (w : ℕ) (refund : Refund) :
    Prop where
  reachable : Reachable P s₀
  opens : ∃ x st, s₀.procs[w]? = some ⟨x, st⟩ ∧ lookupPending st = true
  before : Machine.Reachable (payflow P) s₀ s₁
  commit : ∃ pick, (payflow P).step s₁ (.step w pick) = some s₂
  none : s₁.db.refundByKey? call.merchantId call.idempotencyKey = none
  stored : s₂.db.refundByKey? call.merchantId call.idempotencyKey = some refund
  after : Machine.Reachable (payflow P) s₂ s₃

/-- Another request like that, which overlaps it or comes after it, and has ended with `out`. -/
def Overlaps (s₀ s₃ : State P) (call : CreateRefund) (w q : ℕ) (out : Except Exn Ans) : Prop :=
  q ≠ w ∧ (∀ p, s₀.procs[q]? = some p → p.status.live = true) ∧
    s₃.procs[q]? = some ⟨.createRefund call, .done out⟩

/-- The answer is 202 with the refund and `duplicate=True`. -/
def Replays (refund : Refund) (out : Except Exn Ans) : Prop :=
  ∃ a, out = .ok (.refund a) ∧ a.refund.id = refund.id ∧ a.duplicate = true

/-- The process has looked its key up. -/
def LookedUp (s : State P) (q : ℕ) : Prop :=
  ∃ x st, s.procs[q]? = some ⟨x, st⟩ ∧ lookupPending st = false

theorem pending_or_missed (h : Reachable P s) {q : ℕ}
    {st : Status Write Lock Stmt Block Ext Exn Ans SRes BRes ERes}
    (hq : s.procs[q]? = some ⟨.createRefund call, st⟩)
    (hnone : s.db.refundByKey? call.merchantId call.idempotencyKey = none) :
    Pending call st ∨ Missed call st := by
  have hlookup := h.local (fulfils P) (local_lookup call) (good_init P) (q := q) (by simp [init])
    fun _ w x p D _ hstart hx => by
      subst hx
      exact Or.inr (Or.inl (start_createRefund hstart))
  rcases hlookup _ _ hq rfl with ⟨row, hrow⟩ | hst
  · simp [hnone] at hrow
  · exact hst

theorem fails_of_lookedUp (h : RefundRun s₀ s₁ s₂ s₃ call w refund) {q : ℕ} {out : Except Exn Ans}
    (hqw : q ≠ w) (hq : s₃.procs[q]? = some ⟨.createRefund call, .done out⟩) (hl : LookedUp s₁ q) :
    ∃ e, out = .error e := by
  have hr₁ : Reachable P s₁ := h.reachable.trans h.before
  obtain ⟨pick, hstep⟩ := h.commit
  have hg₂ := (Machine.good_step (fulfils P) (good_of_reachable hr₁) hstep).1
  have hsame := Machine.step_other hstep hqw
  obtain ⟨y, st₁, hp, hlooked⟩ := hl
  have hmissed := h.after.local (fulfils P) (local_missed call) hg₂ (q := q) (fun x st hx hcall => by
    subst hcall
    refine ⟨⟨refund, h.stored⟩, ?_⟩
    rw [hsame] at hx
    obtain ⟨-, rfl⟩ := Machine.Proc.mk.inj (Option.some.inj (hp.symm.trans hx))
    rcases pending_or_missed hr₁ hx h.none with hpending | hmissed
    · simp [lookupPending_of_pending hpending] at hlooked
    · exact hmissed) fun hnone => by
      rw [hsame, hp] at hnone
      simp at hnone
  obtain ⟨-, hout⟩ := hmissed _ _ hq rfl
  cases hout with
  | failed => exact ⟨_, rfl⟩

theorem replays_of_not_lookedUp (h : RefundRun s₀ s₁ s₂ s₃ call w refund) {q : ℕ}
    {out : Except Exn Ans} (hqw : q ≠ w)
    (hq : s₃.procs[q]? = some ⟨.createRefund call, .done out⟩) (hl : ¬ LookedUp s₁ q) :
    Replays refund out := by
  have hr₁ : Reachable P s₁ := h.reachable.trans h.before
  obtain ⟨pick, hstep⟩ := h.commit
  have hg₂ := (Machine.good_step (fulfils P) (good_of_reachable hr₁) hstep).1
  have hsame := Machine.step_other hstep hqw
  have hkey : KeyHas s₂.db call refund.id := ⟨refund, h.stored, rfl⟩
  have hfound := h.after.local (fulfils P) (local_found call refund.id) hg₂ (q := q)
    (fun x st hx hcall => by
      subst hcall
      rw [hsame] at hx
      refine ⟨hkey, Or.inl ?_⟩
      rcases pending_or_missed hr₁ hx h.none with hpending | hmissed
      · exact hpending
      · exact absurd ⟨_, st, hx, lookupPending_of_missed hmissed⟩ hl)
    fun _ w x p D hle hstart hcall => by
      subst hcall
      exact ⟨hkey.later hle.toGrown, Or.inl (start_createRefund hstart)⟩
  obtain ⟨-, hpending | ⟨row, hid, hout⟩⟩ := hfound _ _ hq rfl
  · cases hpending
  · cases hout with
    | done => exact ⟨_, rfl, hid, rfl⟩

/-- **Concurrent refund requests.** Those that overlap the one that makes the refund, or come after
it, are all answered with its refund exactly if they all look their key up after it is committed. -/
theorem refunds_replayed_iff (h : RefundRun s₀ s₁ s₂ s₃ call w refund) :
    (∀ q out, Overlaps s₀ s₃ call w q out → Replays refund out) ↔
      ∀ q out, Overlaps s₀ s₃ call w q out → ¬ LookedUp s₁ q := by
  constructor
  · intro hall q out hq hl
    obtain ⟨e, rfl⟩ := fails_of_lookedUp h hq.1 hq.2.2 hl
    obtain ⟨a, ha, -⟩ := hall q _ hq
    simp at ha
  · intro hall q out hq
    exact replays_of_not_lookedUp h hq.1 hq.2.2 (hall q out hq)

/-- The request of the runs. -/
def exampleCall : CreateRefund := partialRefund

/-- A refund is made by process 2, from its request up to its commit, the next step. -/
def makeRefund : List Act := quiet 2 4 ++ draw 2 [10] ++ quiet 2 2 ++ draw 2 [11, 12, 13]

/-- A run in four parts: up to `s₀`, up to `s₁`, the commit of process 2, and the rest. -/
def runParts (first second rest : List Act) :
    Option (State examplePlatform × State examplePlatform × State examplePlatform ×
      State examplePlatform) := do
  let s₀ ← (payflow examplePlatform).run (init _) first
  let s₁ ← (payflow examplePlatform).run s₀ second
  let s₂ ← (payflow examplePlatform).step s₁ (.step 2 .nothing)
  let s₃ ← (payflow examplePlatform).run s₂ rest
  return (s₀, s₁, s₂, s₃)

/-- What is observed of such a run: whether process 2 has its lookup before it in `s₀`, and whether
the refund is stored in `s₁` and in `s₂`. -/
def observeParts (t : State examplePlatform × State examplePlatform × State examplePlatform ×
    State examplePlatform) : Option Bool × Bool × Bool :=
  (t.1.procs[2]?.map fun p => lookupPending p.status,
    (t.2.1.db.refundByKey? exampleCall.merchantId exampleCall.idempotencyKey).isSome,
    (t.2.2.1.db.refundByKey? exampleCall.merchantId exampleCall.idempotencyKey).isSome)

theorem refundRun_of_parts {first second rest : List Act} {s₀ s₁ s₂ s₃ : State examplePlatform}
    (h : runParts first second rest = some (s₀, s₁, s₂, s₃))
    (ho : observeParts (s₀, s₁, s₂, s₃) = (some true, false, true)) :
    ∃ refund, RefundRun s₀ s₁ s₂ s₃ exampleCall 2 refund := by
  simp only [runParts, Option.bind_eq_bind, Option.bind_eq_some_iff, Option.pure_def,
    Option.some.injEq, Prod.mk.injEq] at h
  obtain ⟨t₀, h₀, t₁, h₁, t₂, h₂, t₃, h₃, rfl, rfl, rfl, rfl⟩ := h
  obtain ⟨hopens, ho⟩ := Prod.mk.inj ho
  obtain ⟨hnone, hsome⟩ := Prod.mk.inj ho
  obtain ⟨p, hp, hpending⟩ := Option.map_eq_some_iff.mp hopens
  obtain ⟨refund, hrefund⟩ := Option.isSome_iff_exists.mp hsome
  refine ⟨refund, .run h₀, ⟨p.origin, p.status, hp, hpending⟩, .run h₁, ⟨.nothing, h₂⟩, ?_, hrefund,
    .run h₃⟩
  exact Option.not_isSome_iff_eq_none.mp (by simp [hnone])

/-- The part up to `s₀`: a payment has succeeded, and process 2 is a request for a refund. -/
def requested : List Act := onePayment ++ [.start (.createRefund exampleCall)]

/-- The same request, after the commit, is answered with the refund. -/
theorem refunds_replayed_after : ∃ (s₀ s₁ s₂ s₃ : State examplePlatform) (refund : Refund),
    RefundRun s₀ s₁ s₂ s₃ exampleCall 2 refund ∧
      ((∀ q out, Overlaps s₀ s₃ exampleCall 2 q out → Replays refund out) ↔
        ∀ q out, Overlaps s₀ s₃ exampleCall 2 q out → ¬ LookedUp s₁ q) := by
  have h : (runParts requested makeRefund
      ([.start (.createRefund exampleCall)] ++ quiet 3 4)).map observeParts =
      some (some true, false, true) := by
    decide +kernel
  obtain ⟨⟨s₀, s₁, s₂, s₃⟩, hs, ho⟩ := Option.map_eq_some_iff.mp h
  obtain ⟨refund, hrun⟩ := refundRun_of_parts hs ho
  exact ⟨s₀, s₁, s₂, s₃, refund, hrun, refunds_replayed_iff hrun⟩

/-- The process has been answered 202 with a new refund. -/
def answeredNew (s : State examplePlatform) (i : ℕ) : Bool :=
  match refundOutcome s i with
  | some (call, .ok (.refund a)) => call = exampleCall && !a.duplicate
  | _ => false

theorem procs_of_answeredNew {s : State examplePlatform} {i : ℕ} (h : answeredNew s i = true) :
    ∃ a, s.procs[i]? = some ⟨.createRefund exampleCall, .done (.ok (.refund a))⟩ ∧
      a.duplicate = false := by
  unfold answeredNew at h
  split at h
  · rename_i call a hout
    rw [Bool.and_eq_true, Bool.not_eq_true'] at h
    obtain rfl := of_decide_eq_true h.1
    exact ⟨a, procs_of_refundOutcome hout, h.2⟩
  · simp at h

/-- The process has been refused with status 409. -/
def refused (s : State examplePlatform) (i : ℕ) : Bool :=
  match refundOutcome s i with
  | some (call, .error (.httpException status _)) => call = exampleCall && status = 409
  | _ => false

theorem procs_of_refused {s : State examplePlatform} {i : ℕ} (h : refused s i = true) :
    ∃ detail, s.procs[i]? =
      some ⟨.createRefund exampleCall, .done (.error (.httpException 409 detail))⟩ := by
  unfold refused at h
  split at h
  · rename_i call status detail hout
    rw [Bool.and_eq_true] at h
    obtain rfl := of_decide_eq_true h.1
    obtain rfl := of_decide_eq_true h.2
    exact ⟨detail, procs_of_refundOutcome hout⟩
  · simp at h

/-- The request that is answered with a new refund, and the same request, which has looked its key
up before the commit and is refused with 409. -/
theorem refunds_not_replayed : ∃ (s₀ s₁ s₂ s₃ : State examplePlatform) (refund : Refund)
    (a : RefundResponse) (detail : Json), RefundRun s₀ s₁ s₂ s₃ exampleCall 2 refund ∧
      (s₃.procs[2]? = some ⟨.createRefund exampleCall, .done (.ok (.refund a))⟩ ∧
        a.duplicate = false) ∧
      Overlaps s₀ s₃ exampleCall 2 3 (.error (.httpException 409 detail)) := by
  have h : (runParts (requested ++ [.start (.createRefund exampleCall)]) (quiet 3 2 ++ makeRefund)
      ([.step 2 (.broker true)] ++ quiet 2 1 ++ quiet 3 3)).map (fun t =>
        (observeParts t, t.1.procs[3]?.map (·.status.live), answeredNew t.2.2.2 2,
          refused t.2.2.2 3)) = some ((some true, false, true), some true, true, true) := by
    decide +kernel
  obtain ⟨⟨s₀, s₁, s₂, s₃⟩, hs, ho⟩ := Option.map_eq_some_iff.mp h
  obtain ⟨hparts, ho⟩ := Prod.mk.inj ho
  obtain ⟨hlive, ho⟩ := Prod.mk.inj ho
  obtain ⟨hnew, hrefused⟩ := Prod.mk.inj ho
  obtain ⟨refund, hrun⟩ := refundRun_of_parts hs hparts
  obtain ⟨a, hwinner⟩ := procs_of_answeredNew hnew
  obtain ⟨detail, hother⟩ := procs_of_refused hrefused
  refine ⟨s₀, s₁, s₂, s₃, refund, a, detail, hrun, hwinner, by decide, fun p hp => ?_, hother⟩
  obtain ⟨p', hp', hlive⟩ := Option.map_eq_some_iff.mp hlive
  obtain rfl := Option.some.inj (hp'.symm.trans hp)
  exact hlive

end Payflow.Safety
