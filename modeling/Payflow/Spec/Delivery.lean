import Payflow.Spec.Events
import Payflow.Spec.Operations

/-! # A webhook delivery, statement by statement

The first thing that a delivery does in its transaction is to record its event. One that finds the
event recorded writes nothing and ends; one that has recorded it keeps the row until it commits, and
has answered 200 then. `Stage` follows a delivery through these statements. -/

namespace Payflow.Spec

open Payflow.Lib Payflow.Model

/-- The event id of the call, as it is recorded. -/
def Carries (P : Platform) (call : ReceiveWebhook) (t : String) : Prop :=
  ∃ payload eventId, P.jsonLoads call.rawBody = .ok payload ∧
    payload.getItem "event_id" = .ok eventId ∧ eventId.assignText P = .ok (some t)

/-- The event is recorded. -/
def Recorded (D : Db) (t : String) : Prop := ∃ w ∈ D.webhookEvents, w.providerEventId = t

/-- What is left of a delivery when its transaction has ended. -/
def deliveryCont (r : Except Exn WebhookAnswer) : Proc Ans :=
  (Prog.ofExcept r).bind fun r => .pure (.webhook r)

/-- Where a delivery is, and what it has recorded. -/
inductive Stage (P : Platform) (call : ReceiveWebhook) (D : Db) :
    Status Write Lock Stmt Block Ext Exn Ans SRes BRes ERes → Prop
  | before {payload} : P.jsonLoads call.rawBody = .ok payload →
      Stage P call D (.run (.op (.txn (.receiveProviderWebhook payload)) deliveryCont))
  | opened {payload now} : P.jsonLoads call.rawBody = .ok payload →
      Stage P call D (.inTxn (.receiveProviderWebhook payload)
        ⟨receiveProviderWebhookTxn P payload, [], [], now⟩ deliveryCont)
  | ignored {payload t a now} : P.jsonLoads call.rawBody = .ok payload → Carries P call t →
      Recorded D t → Stage P call D (.inTxn (.receiveProviderWebhook payload)
        ⟨.pure a, [], [], now⟩ deliveryCont)
  | writing {payload t w rest ws ls now} : P.jsonLoads call.rawBody = .ok payload →
      Carries P call t → w.providerEventId = t → .webhookKey t ∈ ls →
      Stage P call D (.inTxn (.receiveProviderWebhook payload)
        ⟨rest, .insertWebhookEvent w :: ws, ls, now⟩ deliveryCont)
  | replied {t a} : Carries P call t → Recorded D t → Stage P call D (.run (.pure (.webhook a)))
  | answered {t a} : Carries P call t → Recorded D t →
      Stage P call D (.done (.ok (.webhook a)))
  | refused {e} : Stage P call D (.run (.raise e))
  | failed {e} : Stage P call D (.done (.error e))
  | killed : Stage P call D .killed

section stages

variable {P : Platform} {call : ReceiveWebhook} {D D' : Db} {t : String}

theorem Carries.unique {t' : String} (h : Carries P call t) (h' : Carries P call t') : t' = t := by
  obtain ⟨payload, eventId, hload, hitem, htext⟩ := h
  obtain ⟨payload', eventId', hload', hitem', htext'⟩ := h'
  rw [hload] at hload'
  obtain rfl := Except.ok.inj hload'
  rw [hitem] at hitem'
  obtain rfl := Except.ok.inj hitem'
  rw [htext] at htext'
  exact (Option.some.inj (Except.ok.inj htext')).symm

theorem Recorded.mono (h : Recorded D t) (hsub : D.webhookEvents ⊆ D'.webhookEvents) :
    Recorded D' t := by
  obtain ⟨w, hw, ht⟩ := h
  exact ⟨w, hsub hw, ht⟩

theorem Stage.mono {st : Status Write Lock Stmt Block Ext Exn Ans SRes BRes ERes}
    (h : Stage P call D st) (hsub : D.webhookEvents ⊆ D'.webhookEvents) : Stage P call D' st := by
  cases h with
  | before hl => exact .before hl
  | opened hl => exact .opened hl
  | ignored hl hc hr => exact .ignored hl hc (hr.mono hsub)
  | writing hl hc hw hk => exact .writing hl hc hw hk
  | replied hc hr => exact .replied hc (hr.mono hsub)
  | answered hc hr => exact .answered hc (hr.mono hsub)
  | refused => exact .refused
  | failed => exact .failed
  | killed => exact .killed

/-- The new webhook event of a write. -/
def newWebhookEvent? : Write → Option WebhookEvent
  | .insertWebhookEvent row => some row
  | _ => none

theorem webhookEvents_applyAll (ws : List Write) (D : Db) :
    (store.applyAll D ws).webhookEvents = D.webhookEvents ++ ws.filterMap newWebhookEvent? :=
  Store.rows_applyAll (fun D w => by cases w <;> simp [store, Db.apply, newWebhookEvent?]) ws D

theorem webhookEvents_subset (ws : List Write) (D : Db) :
    D.webhookEvents ⊆ (store.applyAll D ws).webhookEvents := by
  rw [webhookEvents_applyAll]
  exact List.subset_append_left _ _

theorem webhookRow_of_does {b : Block} {now : ℕ} {ws : List Write} {r : BRes b}
    (h : Does P b now D ws r) {w : WebhookEvent} (hw : .insertWebhookEvent w ∈ ws) :
    ∃ payload, b = .receiveProviderWebhook payload ∧ webhookRow now P payload w := by
  cases b with
  | getExistingPayment | getPayment | reconcileSelect | getRefund | selectProviderPaymentId =>
    rw [h.1] at hw
    simp at hw
  | createIdempotentPayment =>
    rcases h with ⟨id, event, c', -, -, -, -, rfl, rfl⟩ | ⟨row, -, -, -, rfl⟩ <;> simp at hw
  | recordTransition =>
    obtain ⟨row, -, ⟨-, rfl⟩ | ⟨-, prov, fail, event, outbox, -, -, rfl⟩⟩ := h <;>
      simp [transitionWrites] at hw
  | recordAwaitingWebhook =>
    obtain ⟨row, -, ⟨-, rfl⟩ | ⟨-, prov, event, -, rfl⟩⟩ := h <;> simp at hw
  | recordRetry =>
    obtain ⟨row, -, ⟨-, rfl⟩ | ⟨-, event, rfl⟩⟩ := h <;> simp at hw
  | receiveProviderWebhook payload =>
    obtain ⟨eventId, -, rfl⟩ | ⟨w', eventId, field, p, row, status, hrow, -, -, -, -, -, -, h⟩ := h
    · simp at hw
    rcases h with ⟨-, -, rfl⟩ | ⟨-, -, provider, event, outbox, -, rfl⟩
    · obtain rfl : w = w' := by simpa using hw
      exact ⟨payload, rfl, hrow⟩
    · obtain rfl : w = w' := by simpa [webhookWrites] using hw
      exact ⟨payload, rfl, hrow⟩
  | reconcileOne =>
    obtain ⟨-, rfl⟩ | ⟨-, row, event, outbox, -, -, rfl⟩ := h <;> simp [reconcileWrites] at hw
  | createRefund =>
    obtain ⟨row, id, c, e₁, e₂, e₃, -, -, -, -, -, -, -, -, -, rfl, rfl⟩ | ⟨_, -, -, rfl⟩ := h <;>
      simp [createRefundWrites] at hw
  | recordRefundTransition =>
    obtain ⟨row, -, ⟨-, rfl⟩ | ⟨-, prov, event, outbox, rfl⟩⟩ := h <;>
      simp [refundTransitionWrites] at hw
  | recordRefundRetry => obtain rfl | ⟨row, event, -, -, rfl⟩ := h <;> simp at hw
  | completeSuccessfulRefund =>
    obtain ⟨refund, row, total, event, outbox, -, -, -, -, rfl⟩ := h
    simp [completeWrites] at hw
  | restorePaymentAfterFailedRefund =>
    obtain ⟨rfl, -⟩ | ⟨refund, row, -, -, -, rfl⟩ := h <;> simp at hw

theorem raise_or_ofExcept {Op α β : Type} {Res : Op → Type} {Q : Prog Op Res Exn α → Prop}
    {x : Except Exn β} {k : β → Prog Op Res Exn α}
    (h : ∀ b, x = .ok b → (∃ e, k b = .raise e) ∨ Q (k b)) :
    (∃ e, (Prog.ofExcept x).bind k = .raise e) ∨ Q ((Prog.ofExcept x).bind k) := by
  cases x with
  | error e => exact Or.inl ⟨e, rfl⟩
  | ok b => exact h b rfl

/-- The program records the event `t` first, and ends if it has been recorded. -/
def Records (P : Platform) (payload : Json) (p : Tx WebhookAnswer) : Prop :=
  ∃ t type eventId k, payload.getItem "event_id" = .ok eventId ∧
    eventId.assignText P = .ok (some t) ∧ p = .op (.insertWebhookEvent t type payload) k ∧
    k none = .pure (.duplicateIgnored eventId)

/-- **The body of the transaction** raises, or records the event first. -/
theorem receiveProviderWebhookTxn_eq (P : Platform) (payload : Json) :
    (∃ e, receiveProviderWebhookTxn P payload = .raise e) ∨
      Records P payload (receiveProviderWebhookTxn P payload) := by
  refine raise_or_ofExcept fun eventId hitem => ?_
  refine raise_or_ofExcept fun text htext => ?_
  refine raise_or_ofExcept fun type _ => ?_
  refine raise_or_ofExcept fun type _ => ?_
  by_cases hrefused : (payload.hasNul || payload.hasNonFinite) = true
  · rw [if_pos hrefused]
    exact Or.inl ⟨_, rfl⟩
  rw [if_neg hrefused]
  refine raise_or_ofExcept fun t hnull => ?_
  refine raise_or_ofExcept fun type _ => ?_
  rw [eq_of_notNull hnull] at htext
  exact Or.inr ⟨t, type, eventId, _, hitem, htext, rfl, rfl⟩

/-- The program is the transaction on the payload of the call. -/
def RunsTxn (P : Platform) (call : ReceiveWebhook) (p : Proc WebhookAnswer) : Prop :=
  ∃ payload, P.jsonLoads call.rawBody = .ok payload ∧ p = txn (.receiveProviderWebhook payload)

theorem receiveProviderWebhook_eq (P : Platform) (call : ReceiveWebhook) :
    (∃ e, receiveProviderWebhook P call = .raise e) ∨
      RunsTxn P call (receiveProviderWebhook P call) := by
  unfold receiveProviderWebhook
  refine raise_or_ofExcept fun verified _ => ?_
  split_ifs with hverified
  · exact Or.inl ⟨_, rfl⟩
  cases hload : P.jsonLoads call.rawBody with
  | error e => cases e <;> exact Or.inl ⟨_, rfl⟩
  | ok payload =>
    refine raise_or_ofExcept fun complete _ => ?_
    split_ifs with hcomplete
    · exact Or.inl ⟨_, rfl⟩
    refine raise_or_ofExcept fun status _ => ?_
    refine raise_or_ofExcept fun supported _ => ?_
    cases supported with
    | false => exact Or.inl ⟨_, rfl⟩
    | true => exact Or.inr ⟨payload, hload, rfl⟩

theorem stage_start {w : World} {p : Proc Ans}
    (h : (payflow P).start w (.receiveProviderWebhook call) = some p) :
    Stage P call D (.run p) := by
  obtain rfl := Option.some.inj h
  rcases receiveProviderWebhook_eq P call with ⟨e, he⟩ | ⟨payload, hload, htxn⟩
  · rw [he]
    exact .refused
  · rw [htxn]
    exact .before hload

theorem insertWebhookEvent_exec {v : Env Pick} {t type : String} {payload : Json}
    {r : Option Uuid} {ws : List Write}
    (h : stmtExec v D (.insertWebhookEvent t type payload) = some (r, ws)) :
    (Recorded D t ∧ r = none ∧ ws = [] ∧
      stmtLocks v D (.insertWebhookEvent t type payload) = []) ∨
    ¬ Recorded D t ∧ .webhookKey t ∈ stmtLocks v D (.insertWebhookEvent t type payload) ∧
      ∃ w, w.providerEventId = t ∧ ws = [.insertWebhookEvent w] := by
  have hiff : (D.webhookEvents.any fun w => w.providerEventId = t) = true ↔ Recorded D t := by
    simp [Recorded]
  by_cases hany : (D.webhookEvents.any fun w => w.providerEventId = t) = true
  · simp only [stmtExec, if_pos hany] at h
    obtain ⟨rfl, rfl⟩ := Prod.mk.inj (Option.some.inj h)
    exact Or.inl ⟨hiff.mp hany, rfl, rfl, if_pos hany⟩
  · simp only [stmtExec, if_neg hany] at h
    obtain ⟨id, -, hx⟩ := Option.map_eq_some_iff.mp h
    obtain ⟨rfl, rfl⟩ := Prod.mk.inj hx
    have hlocks : stmtLocks v D (.insertWebhookEvent t type payload) =
        .webhookKey t :: (drawn v D).toList.map .newId := if_neg hany
    exact Or.inr ⟨fun hr => hany (hiff.mpr hr), hlocks ▸ List.mem_cons_self, _, rfl, rfl⟩

/-- **One step of a delivery.** It changes the database only when it commits its event, and then it
has been answered. -/
theorem stage_advance {s : State P} {pid : ℕ} {pick : Pick} {x : Start P} {db : Db} {w : World}
    {st st' : Status Write Lock Stmt Block Ext Exn Ans SRes BRes ERes}
    (h : Stage P call s.db st)
    (hs : Machine.advance (payflow P) s pid pick x st = some (db, w, st')) :
    Stage P call db st' := by
  cases h with
  | before hl =>
    obtain ⟨rfl, hst⟩ := Prod.mk.inj (Option.some.inj hs)
    obtain ⟨-, rfl⟩ := Prod.mk.inj hst
    exact .opened hl
  | @opened payload now hl =>
    rcases receiveProviderWebhookTxn_eq P payload with ⟨e, he⟩ |
      ⟨t, type, eventId, k, hitem, htext, hbody, hnone⟩
    · rw [he] at hs
      obtain ⟨rfl, hst⟩ := Prod.mk.inj (Option.some.inj hs)
      obtain ⟨-, rfl⟩ := Prod.mk.inj hst
      exact .refused
    · rw [hbody] at hs
      have hcarries : Carries P call t := ⟨payload, eventId, hl, hitem, htext⟩
      obtain ⟨r, ws', hx, rfl, rfl⟩ := Machine.advance_stmt hs
      rcases insertWebhookEvent_exec hx with ⟨hrec, rfl, rfl, hlocks⟩ | ⟨-, hlock, row, hrow, rfl⟩
      · rw [hnone]
        have hneed : (payflow P).locks ⟨now, pick⟩ ((payflow P).applyAll s.db [])
            (.insertWebhookEvent t type payload) = [] := hlocks
        rw [hneed]
        exact .ignored hl hcarries hrec
      · exact .writing hl hcarries hrow (List.mem_append_right _ hlock)
  | ignored hl hc hr =>
    obtain ⟨rfl, hst⟩ := Prod.mk.inj (Option.some.inj hs)
    obtain ⟨-, rfl⟩ := Prod.mk.inj hst
    exact .replied hc hr
  | @writing payload t row rest ws ls now hl hc hrow hk =>
    cases rest with
    | pure a =>
      obtain ⟨rfl, hst⟩ := Prod.mk.inj (Option.some.inj hs)
      obtain ⟨-, rfl⟩ := Prod.mk.inj hst
      refine .replied hc ⟨row, ?_, hrow⟩
      have hnew : row ∈ (Db.apply s.db (.insertWebhookEvent row)).webhookEvents := by
        simp [Db.apply]
      exact webhookEvents_subset ws _ hnew
    | raise e =>
      obtain ⟨rfl, hst⟩ := Prod.mk.inj (Option.some.inj hs)
      obtain ⟨-, rfl⟩ := Prod.mk.inj hst
      exact .refused
    | op o kk =>
      obtain ⟨r, ws', hx, rfl, rfl⟩ := Machine.advance_stmt hs
      exact .writing hl hc hrow (List.mem_append_left _ hk)
  | replied hc hr =>
    obtain ⟨rfl, hst⟩ := Prod.mk.inj (Option.some.inj hs)
    obtain ⟨-, rfl⟩ := Prod.mk.inj hst
    exact .answered hc hr
  | refused =>
    obtain ⟨rfl, hst⟩ := Prod.mk.inj (Option.some.inj hs)
    obtain ⟨-, rfl⟩ := Prod.mk.inj hst
    exact .failed
  | answered => simp [Machine.advance] at hs
  | failed => simp [Machine.advance] at hs
  | killed => simp [Machine.advance] at hs

/-- The transaction of a delivery is about the payload of its call. -/
theorem stage_txn {b : Block} {t : Txn Write Lock Stmt SRes Exn (BRes b)}
    {k : Except Exn (BRes b) → Proc Ans} (h : Stage P call D (.inTxn b t k)) :
    ∃ payload, b = .receiveProviderWebhook payload ∧ P.jsonLoads call.rawBody = .ok payload := by
  cases h with
  | opened hl => exact ⟨_, rfl, hl⟩
  | ignored hl _ _ => exact ⟨_, rfl, hl⟩
  | writing hl _ _ _ => exact ⟨_, rfl, hl⟩

/-- Where a delivery has committed, it is about to be answered, or has been. -/
def Replied (st : Status Write Lock Stmt Block Ext Exn Ans SRes BRes ERes) : Prop :=
  (∃ a, st = .run (.pure (.webhook a))) ∨ (∃ a, st = .done (.ok (.webhook a))) ∨ st = .killed

theorem replied_of_advance {s : State P} {pid : ℕ} {pick : Pick} {x : Start P} {db : Db} {w : World}
    {st st' : Status Write Lock Stmt Block Ext Exn Ans SRes BRes ERes}
    (h : Stage P call s.db st)
    (hs : Machine.advance (payflow P) s pid pick x st = some (db, w, st')) :
    db = s.db ∨ Replied st' := by
  cases h with
  | @opened payload now hl =>
    rcases receiveProviderWebhookTxn_eq P payload with ⟨e, he⟩ | ⟨t, type, eventId, k,
      -, -, hbody, -⟩
    · rw [he] at hs
      exact Or.inl (Prod.mk.inj (Option.some.inj hs)).1.symm
    · rw [hbody] at hs
      obtain ⟨r, ws', -, rfl, -⟩ := Machine.advance_stmt hs
      exact Or.inl rfl
  | @writing payload t row rest ws ls now hl hc hrow hk =>
    cases rest with
    | pure a =>
      obtain ⟨-, hst⟩ := Prod.mk.inj (Option.some.inj hs)
      obtain ⟨-, rfl⟩ := Prod.mk.inj hst
      exact Or.inr (Or.inl ⟨a, rfl⟩)
    | raise e => exact Or.inl (Prod.mk.inj (Option.some.inj hs)).1.symm
    | op o kk =>
      obtain ⟨r, ws', -, rfl, -⟩ := Machine.advance_stmt hs
      exact Or.inl rfl
  | answered | failed | killed => simp [Machine.advance] at hs
  | _ => exact Or.inl (Prod.mk.inj (Option.some.inj hs)).1.symm

theorem Replied.advance {s : State P} {pid : ℕ} {pick : Pick} {x : Start P} {db : Db} {w : World}
    {st st' : Status Write Lock Stmt Block Ext Exn Ans SRes BRes ERes} (h : Replied st)
    (hs : Machine.advance (payflow P) s pid pick x st = some (db, w, st')) : Replied st' := by
  rcases h with ⟨a, rfl⟩ | ⟨a, rfl⟩ | rfl
  · obtain ⟨-, hst⟩ := Prod.mk.inj (Option.some.inj hs)
    obtain ⟨-, rfl⟩ := Prod.mk.inj hst
    exact Or.inr (Or.inl ⟨a, rfl⟩)
  · simp [Machine.advance] at hs
  · simp [Machine.advance] at hs

/-- **A delivery of a recorded event is silent**: while it holds no lock, it changes neither the
database nor the messages, and takes no lock. -/
theorem silent_advance {s : State P} {pid : ℕ} {pick : Pick} {db : Db} {w : World}
    {st st' : Status Write Lock Stmt Block Ext Exn Ans SRes BRes ERes}
    (h : Stage P call s.db st) (hc : Carries P call t) (hr : Recorded s.db t) (hl : st.locks = [])
    (hs : Machine.advance (payflow P) s pid pick (.receiveProviderWebhook call) st =
      some (db, w, st')) : db = s.db ∧ w = s.world ∧ st'.locks = [] := by
  cases h with
  | @opened payload now hload =>
    rcases receiveProviderWebhookTxn_eq P payload with ⟨e, he⟩ |
      ⟨t', type, eventId, k, hitem, htext, hbody, hnone⟩
    · rw [he] at hs
      obtain ⟨rfl, hst⟩ := Prod.mk.inj (Option.some.inj hs)
      obtain ⟨rfl, rfl⟩ := Prod.mk.inj hst
      exact ⟨rfl, rfl, rfl⟩
    · rw [hbody] at hs
      obtain rfl := hc.unique ⟨payload, eventId, hload, hitem, htext⟩
      have hw : w = s.world := by
        simp only [Machine.advance] at hs
        split_ifs at hs
        split at hs
        · exact (Prod.mk.inj (Prod.mk.inj (Option.some.inj hs)).2).1.symm
        · simp at hs
      obtain ⟨r, ws', hx, rfl, rfl⟩ := Machine.advance_stmt hs
      rcases insertWebhookEvent_exec hx with ⟨-, -, -, hlocks⟩ | ⟨hnot, -⟩
      · exact ⟨rfl, hw, hlocks⟩
      · exact absurd hr hnot
  | @writing payload t' row rest ws ls now hload hc' hrow hk =>
    have hl : ls = [] := hl
    simp [hl] at hk
  | answered | failed | killed => simp [Machine.advance] at hs
  | _ =>
    obtain ⟨rfl, hst⟩ := Prod.mk.inj (Option.some.inj hs)
    obtain ⟨rfl, rfl⟩ := Prod.mk.inj hst
    exact ⟨rfl, rfl, rfl⟩

end stages

section runs

variable {P : Platform} {s s' : State P}

theorem webhookEvents_step (h : Reachable P s) {a : Action (Start P) Pick}
    (hs : (payflow P).step s a = some s') : s.db.webhookEvents ⊆ s'.db.webhookEvents := by
  rcases step_commit h hs with hdb | ⟨pid, pick, b, now, ws, r, -, -, -, -, hdb⟩
  · rw [hdb]
    exact List.Subset.refl _
  · rw [hdb]
    exact webhookEvents_subset _ _

/-- **Every delivery is at a stage.** -/
theorem stage_of_reachable (h : Reachable P s) {i : ℕ} {call : ReceiveWebhook}
    {st : Status Write Lock Stmt Block Ext Exn Ans SRes BRes ERes}
    (hp : s.procs[i]? = some ⟨.receiveProviderWebhook call, st⟩) : Stage P call s.db st := by
  induction h generalizing st with
  | refl => simp [init] at hp
  | step hr _ hs ih =>
    have hsub := webhookEvents_step hr hs
    cases Machine.step_process hs hp with
    | own _ hp hadv => exact stage_advance (ih hp) hadv
    | other hp => exact (ih hp).mono hsub
    | killed _ _ => exact .killed
    | started _ _ hstart => exact stage_start hstart

end runs

end Payflow.Spec
