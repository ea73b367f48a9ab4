import Payflow.Lib.Steps
import Payflow.Safety.Lifecycle
import Payflow.Spec.Footprint

/-! # Reconciliation and the id at the provider

`reconcile_processing_payments` reads the ids of the payments in one transaction, asks the provider
outside of any, and looks at the status only when it commits. `record_awaiting_webhook` can put
another id into the row meanwhile, and a payment that has `FAILED` under another id can be brought
back to `PROCESSING`. As long as neither happens to a payment while an execution that has read
another id may still apply a status to it, every status that is committed is one that the provider
has reported for the id in the row. -/

namespace Payflow.Safety

open Payflow.Lib Payflow.Model Payflow.Spec

variable {P : Platform} {α : Type}

/-- The provider has answered a lookup with the status. -/
def Reports (out : HttpOutcome) (st : PaymentStatus) : Prop :=
  ∃ statusCode text json status, out = .response statusCode text (.ok json) ∧ statusCode < 400 ∧
    json.getItem "status" = .ok status ∧ status.isStr st.text = true

/-! ### The program -/

/-- What an execution has read, and what it has asked last and was answered. -/
structure Lookup where
  rows : List Payment
  last : Option (String × HttpOutcome)

/-- The last answer reports the status for the id that was read of the payment. -/
def BackedBy (l : Lookup) (p : Uuid) (st : PaymentStatus) : Prop :=
  ∃ payment ∈ l.rows, payment.id = p ∧ ∃ out,
    l.last = some (payment.providerPaymentId.getD "None", out) ∧ Reports out st

/-- A status is applied to a payment when the last answer backs it. -/
def lookups : Protocol (Call Block Ext) (Call.Res BRes ERes Exn) Lookup where
  allow
    | l, .txn (.reconcileOne p st) => BackedBy l p st
    | l, .txn .reconcileSelect => l.rows = []
    | _, _ => True
  next
    | l, .txn .reconcileSelect, .ok rows => { l with rows := rows }
    | l, .ext (.getPayment id), out => { l with last := some (id, out) }
    | l, _, _ => l

/-- The program keeps to this. -/
abbrev Looks (l : Lookup) {α : Type} (p : Proc α) : Prop :=
  p.Follows lookups (fun _ _ => True) (fun _ _ => True) l

/-- Another operation. -/
def NoLookup : Call Block Ext → Prop
  | .txn (.reconcileOne _ _) | .txn .reconcileSelect | .ext (.getPayment _) => False
  | _ => True

theorem looks_of_uses {l : Lookup} {S : Call Block Ext → Prop} {p : Proc α} (h : UsesOnly S p)
    (hS : ∀ o, S o → NoLookup o) : Looks l p := by
  refine h.follows (fun o ho => ?_) (fun _ => trivial) fun _ => trivial
  have hno := hS o ho
  cases o with
  | txn b => cases b <;> first | exact hno.elim | exact ⟨trivial, fun _ => rfl⟩
  | ext e => cases e <;> first | exact hno.elim | exact ⟨trivial, fun _ => rfl⟩

theorem looks_tryGetProviderPayment {l : Lookup} (id : String) :
    (tryGetProviderPayment id).Follows lookups (fun l' answer => l'.rows = l.rows ∧
      ∀ json, answer = some json → ∃ statusCode text,
        l'.last = some (id, .response statusCode text (.ok json)) ∧ statusCode < 400)
      (fun _ _ => True) l := by
  refine .handle (R := fun l' _ => l'.rows = l.rows) (.bind (Q := fun l' json => l'.rows = l.rows ∧
    ∃ statusCode text, l'.last = some (id, .response statusCode text (.ok json)) ∧
      statusCode < 400) ⟨trivial, fun out => ?_⟩ ?_) ?_
  · cases out with
    | response statusCode text json =>
      refine .ite (fun _ => rfl) fun h₅ => .ite (fun _ => rfl) fun h₄ => ?_
      cases json with
      | error e => exact rfl
      | ok json => exact ⟨rfl, statusCode, text, rfl, by omega⟩
    | _ => exact rfl
  · rintro l' json ⟨hrows, hlast⟩
    refine ⟨hrows, fun json' hj => ?_⟩
    obtain rfl := Option.some.inj hj
    exact hlast
  · intro l' e hrows
    cases e with
    | transientProviderError _ | permanentProviderError _ => exact ⟨hrows, fun _ h => by cases h⟩
    | _ => trivial

theorem isStr_of_inSet {status : Json} (h : status.inSet ["SUCCEEDED", "FAILED"] = .ok true) :
    status.isStr (if status.isStr "SUCCEEDED" then PaymentStatus.succeeded else .failed).text =
      true := by
  cases status with
  | str s =>
    have hmem := List.mem_of_elem_eq_true (Except.ok.inj h)
    split_ifs with hs
    · exact hs
    · rcases List.mem_pair.mp hmem with rfl | rfl
      · exact absurd rfl hs
      · rfl
  | _ => cases h

theorem looks_reconcileLoop : ∀ (payments : List Payment) (counts : Reconciled) {l : Lookup},
    (∀ payment ∈ payments, payment ∈ l.rows) → Looks l (reconcileLoop payments counts)
  | [], _, _, _ => trivial
  | payment :: payments, counts, l, h => by
    have hlater : ∀ {l' : Lookup}, l'.rows = l.rows → ∀ payment ∈ payments, payment ∈ l'.rows :=
      fun he payment hmem => he ▸ h payment (List.mem_cons_of_mem _ hmem)
    refine (looks_tryGetProviderPayment _).bind fun l₁ answer ⟨hrows, hlast⟩ => ?_
    cases answer with
    | none => exact looks_reconcileLoop payments _ (hlater hrows)
    | some json =>
      refine .ofExcept (fun _ _ => trivial) fun status hstatus => ?_
      refine .ofExcept (fun _ _ => trivial) fun final hfinal => ?_
      refine .ite (fun _ => looks_reconcileLoop payments _ (hlater hrows)) fun hf => ?_
      obtain ⟨statusCode, text, hlast, hcode⟩ := hlast json rfl
      obtain rfl : final = true := by simpa using hf
      refine ⟨⟨payment, hrows ▸ h payment List.mem_cons_self, rfl, _, hlast, statusCode, text, json,
        status, rfl, hcode, hstatus, isStr_of_inSet hfinal⟩, fun r => ?_⟩
      cases r with
      | error e => trivial
      | ok corrected => exact looks_reconcileLoop payments _ (hlater hrows)

theorem looks_reconcileProcessingPayments :
    Looks ⟨[], none⟩ reconcileProcessingPayments := by
  refine ⟨rfl, fun r => ?_⟩
  cases r with
  | error e => trivial
  | ok rows => exact looks_reconcileLoop rows _ fun _ h => h

theorem looks_start {w : World} {x : Start P} {q : Proc Ans} (h : start P w x = some q) :
    Looks ⟨[], none⟩ q := by
  have huses := uses_start h
  cases x with
  | reconcilePayments =>
    obtain rfl := Option.some.inj h
    exact looks_reconcileProcessingPayments.bind fun _ _ _ => trivial
  | task i =>
    refine looks_of_uses huses fun o ho => ?_
    obtain ⟨m, -, ho⟩ := ho
    rcases o with b | e
    · cases b <;> first | trivial | (cases m with | mk task => cases task <;> exact ho.elim)
    · cases e <;> first | trivial | (cases m with | mk task => cases task <;> exact ho.elim)
  | _ =>
    refine looks_of_uses huses fun o ho => ?_
    rcases o with b | e
    · cases b <;> trivial
    · cases e <;> trivial

/-! ### The runs -/

/-- The answer to a lookup. -/
def answered (s : State P) : Action (Start P) Pick → List (String × HttpOutcome)
  | .step pid (.http out) =>
    match s.procs[pid]? with
    | some ⟨_, .run (.op (.ext (.getPayment id)) _)⟩ => [(id, out)]
    | _ => []
  | _ => []

/-- The rows that an execution of `reconcile_processing_payments` has just read. -/
def readRows (s : State P) (pid : ℕ) : Option (List Payment) :=
  match s.procs[pid]? with
  | some ⟨_, .inTxn .reconcileSelect ⟨.pure rows, _, _, _⟩ _⟩ => some rows
  | _ => none

/-- The system, the lookups that the provider has answered, and the rows that the executions have
selected. -/
structure Watched (P : Platform) where
  app : State P
  answers : List (String × HttpOutcome)
  selected : ℕ → List Payment

/-- The executions that select. -/
def selectedAfter (selected : ℕ → List Payment) (s' : State P) :
    Action (Start P) Pick → ℕ → List Payment
  | .step pid _ =>
    match readRows s' pid with
    | some rows => Function.update selected pid rows
    | none => selected
  | _ => selected

/-- One step of the system. -/
def Watched.step (n : Watched P) (a : Action (Start P) Pick) : Option (Watched P) :=
  match (payflow P).step n.app a with
  | some s' => some ⟨s', n.answers ++ answered n.app a, selectedAfter n.selected s' a⟩
  | none => none

def Watched.init (P : Platform) : Watched P := ⟨Model.init P, [], fun _ => []⟩

/-- Not a correction of the payment. -/
def NotApplied (p : Uuid) (o : Call Block Ext) : Prop := ∀ st, o ≠ .txn (.reconcileOne p st)

/-- The process may still apply a status to the payment. -/
def MayApply (p : Uuid) : Status Write Lock Stmt Block Ext Exn Ans SRes BRes ERes → Prop
  | .run q => ¬ q.Uses (NotApplied p)
  | .inTxn b _ k => ¬ (.op (Call.txn b) k : Proc Ans).Uses (NotApplied p)
  | _ => False

/-- The id of a payment that a transaction leaves in `PROCESSING`, or brings there. -/
def idAfter (P : Platform) (row : Payment) : Block → Option (Option String)
  | .recordAwaitingWebhook p provider =>
    if row.id = p ∧ row.status = .processing then (provider.assignText P).toOption else none
  | .recordTransition p _ .processing provider _ =>
    if row.id = p ∧ .processing ∈ validTransitions row.status then
      (provider.textParam P).toOption.map fun id => id <|> row.providerPaymentId
    else none
  | _ => none

/-- A transaction that leaves a payment in `PROCESSING` or brings it there leaves it with the id
that the executions have read which may still apply a status to it. -/
def KeepsIds (n : Watched P) (a : Action (Start P) Pick) : Prop :=
  ∀ pid pick b now ws, ∀ r : BRes b, a = .step pid pick → Machine.AtCommit n.app pid b now ws r →
    ∀ p row id, n.app.db.payment? p = some row → idAfter P row b = some id →
      ∀ (q : ℕ) x st, n.app.procs[q]? = some ⟨x, st⟩ → MayApply p st →
        ∀ payment ∈ n.selected q, payment.id = p → payment.providerPaymentId = id

/-- A process is where its program keeps to the protocol. -/
def StatusLooks (l : Lookup) : Status Write Lock Stmt Block Ext Exn Ans SRes BRes ERes → Prop
  | .run q => Looks l q
  | .inTxn b _ k => Looks l (.op (Call.txn b) k)
  | _ => True

/-- A process in the first transaction of `reconcile_processing_payments` is before its statement,
or has read what it has selected. -/
def Reading (rows : List Payment) : Status Write Lock Stmt Block Ext Exn Ans SRes BRes ERes → Prop
  | .inTxn .reconcileSelect t _ =>
    t.writes = [] ∧ (t.rest = reconcileSelectTxn ∨ t.rest = .pure rows)
  | _ => True

theorem looks_own {s s' : State P} {pid : ℕ} {pick : Pick} {x : Start P} {w : World}
    {st st' : Status Write Lock Stmt Block Ext Exn Ans SRes BRes ERes} {l : Lookup}
    (hst : StatusLooks l st) (h : Machine.advance (payflow P) s pid pick x st =
      some (s'.db, w, st')) :
    ∃ l', StatusLooks l' st' ∧
      (l'.rows = l.rows ∨ l.rows = [] ∧ ∃ ws ls now k, ∃ rows : List Payment,
        st = .inTxn .reconcileSelect ⟨.pure rows, ws, ls, now⟩ k ∧ l'.rows = rows) ∧
      (l'.last = l.last ∨ ∃ id out k, pick = .http out ∧
        st = .run (.op (Call.ext (Ext.getPayment id)) k) ∧ l'.last = some (id, out)) ∧
      ∀ p, MayApply p st' → MayApply p st := by
  cases st with
  | run q =>
    cases q with
    | pure a | raise e =>
      simp only [Machine.advance, Option.some.injEq, Prod.mk.injEq] at h
      obtain ⟨-, -, rfl⟩ := h
      exact ⟨l, trivial, Or.inl rfl, Or.inl rfl, fun _ hp => hp.elim⟩
    | op o k =>
      cases o with
      | txn b =>
        simp only [Machine.advance, Option.some.injEq, Prod.mk.injEq] at h
        obtain ⟨-, -, rfl⟩ := h
        exact ⟨l, hst, Or.inl rfl, Or.inl rfl, fun _ hp => hp⟩
      | ext e =>
        simp only [Machine.advance] at h
        split at h
        · rename_i r w' hx
          simp only [Option.some.injEq, Prod.mk.injEq] at h
          obtain ⟨-, -, rfl⟩ := h
          refine ⟨_, hst.2 r, ?_, ?_, fun p hp huses => hp (huses.2 r)⟩
          · exact Or.inl (by cases e <;> rfl)
          · cases e with
            | getPayment id =>
              cases pick with
              | http out =>
                obtain ⟨rfl, -⟩ := Prod.mk.inj (Option.some.inj hx)
                exact Or.inr ⟨id, out, k, rfl, rfl, rfl⟩
              | _ => cases hx
            | _ => exact Or.inl rfl
        · simp at h
  | inTxn b t k =>
    obtain ⟨rest, ws, ls, now⟩ := t
    cases rest with
    | op o kk =>
      obtain ⟨r, ws', hx, -, rfl⟩ := Machine.advance_stmt h
      exact ⟨l, hst, Or.inl rfl, Or.inl rfl, fun _ hp => hp⟩
    | pure r =>
      simp only [Machine.advance, Option.some.injEq, Prod.mk.injEq] at h
      obtain ⟨-, -, rfl⟩ := h
      refine ⟨_, hst.2 (.ok r : Except Exn (BRes b)), ?_, ?_, fun p hp huses => hp (huses.2 _)⟩
      · cases b with
        | reconcileSelect => exact Or.inr ⟨hst.1, ws, ls, now, k, r, rfl, rfl⟩
        | _ => exact Or.inl rfl
      · exact Or.inl (by cases b <;> rfl)
    | raise e =>
      simp only [Machine.advance, Option.some.injEq, Prod.mk.injEq] at h
      obtain ⟨-, -, rfl⟩ := h
      refine ⟨_, hst.2 (.error e : Except Exn (BRes b)), ?_, ?_, fun p hp huses => hp (huses.2 _)⟩
      · exact Or.inl (by cases b <;> rfl)
      · exact Or.inl (by cases b <;> rfl)
  | done out => simp [Machine.advance] at h
  | killed => simp [Machine.advance] at h

theorem reading_own {s s' : State P} {pid : ℕ} {pick : Pick} {x : Start P} {w : World}
    {st st' : Status Write Lock Stmt Block Ext Exn Ans SRes BRes ERes} {rows : List Payment}
    (hst : Reading rows st) (h : Machine.advance (payflow P) s pid pick x st =
      some (s'.db, w, st')) :
    (∃ ls now k, ∃ rows' : List Payment,
      st' = .inTxn .reconcileSelect ⟨.pure rows', [], ls, now⟩ k ∧
        rows' = processingPayments pick.tie now s.db) ∨
    (Reading rows st' ∧ ∀ ws ls now k, ∀ rows' : List Payment,
      st' ≠ .inTxn .reconcileSelect ⟨.pure rows', ws, ls, now⟩ k) := by
  by_cases hin : ∃ t k, st' = .inTxn .reconcileSelect t k
  · obtain ⟨⟨rest, ws, ls, now⟩, k, rfl⟩ := hin
    cases st with
    | run q =>
      refine Or.inr ?_
      cases q with
      | op o k' =>
        cases o with
        | txn b =>
          simp only [Machine.advance, Option.some.injEq, Prod.mk.injEq] at h
          obtain ⟨-, -, he⟩ := h
          cases he
          exact ⟨⟨rfl, Or.inl rfl⟩, fun _ _ _ _ _ he => by cases he⟩
        | ext e =>
          simp only [Machine.advance] at h
          split at h <;> simp at h
      | _ => simp [Machine.advance] at h
    | inTxn b t k' =>
      obtain ⟨rest', ws', ls', now'⟩ := t
      cases rest' with
      | op o kk =>
        obtain ⟨r, ws'', hx, -, he⟩ := Machine.advance_stmt h
        cases he
        obtain ⟨hws, hrest | hrest⟩ := hst
        · cases hrest
          obtain rfl : ws' = [] := hws
          obtain ⟨rfl, rfl⟩ := Prod.mk.inj (Option.some.inj hx)
          exact Or.inl ⟨_, _, _, _, rfl, rfl⟩
        · cases hrest
      | _ => simp [Machine.advance] at h
    | _ => simp [Machine.advance] at h
  · refine Or.inr ⟨?_, fun _ _ _ _ _ he => hin ⟨_, _, he⟩⟩
    unfold Reading
    split
    · exact absurd ⟨_, _, rfl⟩ hin
    · trivial

/-- What a commit leaves of the row of a payment, if it is `PROCESSING` then. -/
theorem idAfter_of_does {b : Block} {now : ℕ} {D : Db} {ws : List Write} {r : BRes b}
    (hreq : Requires b D) (h : Does P b now D ws r) {p : Uuid} {row : Payment}
    (hrow : D.payment? p = some row) :
    ∃ row', (store.applyAll D ws).payment? p = some row' ∧ (row'.status = .processing →
      (row.status = .processing ∧ row'.providerPaymentId = row.providerPaymentId) ∨
        idAfter P row b = some row'.providerPaymentId) := by
  have hchange := row_step h p
  rw [hrow] at hchange
  generalize (store.applyAll D ws).payment? p = after at hchange
  cases hchange with
  | same => exact ⟨row, rfl, fun hs => Or.inl ⟨hs, rfl⟩⟩
  | set hset =>
    refine ⟨_, rfl, fun hs => ?_⟩
    cases hset with
    | @transition type new provider failure provider' failure' hv hp hf =>
      obtain rfl : new = .processing := hs
      refine Or.inr ?_
      simp only [idAfter]
      rw [if_pos ⟨trivial, hv⟩, hp]
      rfl
    | awaiting hst hp =>
      refine Or.inr ?_
      simp only [idAfter]
      rw [if_pos ⟨trivial, hst⟩, hp]
      rfl
    | retry hst => exact Or.inl ⟨hst, rfl⟩
    | @webhook payload paymentId status field provider hst =>
      have hs : webhookStatus status = .processing := hs
      unfold webhookStatus at hs
      split_ifs at hs
    | @reconcile status hst =>
      have hs : status = .processing := hs
      rcases hreq with he | he <;> rw [he] at hs <;> cases hs
    | refund hst => cases hs
    | complete hq hp hrow' hle hfull =>
      have hs : statusAfterRefund _ _ = PaymentStatus.processing := hs
      unfold statusAfterRefund at hs
      split_ifs at hs
    | restore hq hp hst => cases hs

/-- The payment has the id that was read of it, as long as it is `PROCESSING`. -/
def Held (D : Db) (payment : Payment) : Prop :=
  payment.providerPaymentId ≠ none ∧ ∃ row, D.payment? payment.id = some row ∧
    (row.status = .processing → row.providerPaymentId = payment.providerPaymentId)

theorem held_of_mem {D : Db} (hi : Inv D) {tie : Uuid → ℕ} {now : ℕ} {payment : Payment}
    (h : payment ∈ processingPayments tie now D) : Held D payment := by
  have hmem := (List.mem_insertionSort _).mp (List.mem_of_mem_take h)
  simp only [List.mem_filter, Bool.and_eq_true, decide_eq_true_eq] at hmem
  obtain ⟨hmem, ⟨-, hsome⟩, -⟩ := hmem
  refine ⟨fun he => ?_, payment, find?_key_of_mem hi.payment_ids hmem, fun _ => rfl⟩
  rw [he] at hsome
  cases hsome

/-- What the executions have read and were answered, and what is true of it. -/
structure Tracked (n : Watched P) (g : ℕ → Lookup) : Prop where
  looks : ∀ (pid : ℕ) x st, n.app.procs[pid]? = some ⟨x, st⟩ → StatusLooks (g pid) st
  reading : ∀ (pid : ℕ) x st, n.app.procs[pid]? = some ⟨x, st⟩ → Reading (n.selected pid) st
  rows : ∀ pid, ∀ payment ∈ (g pid).rows, payment ∈ n.selected pid
  last : ∀ pid answer, (g pid).last = some answer → answer ∈ n.answers
  held : ∀ (pid : ℕ) x st p, n.app.procs[pid]? = some ⟨x, st⟩ → MayApply p st →
    ∀ payment ∈ n.selected pid, payment.id = p → Held n.app.db payment
  fresh : ∀ pid, n.app.procs.length ≤ pid → n.selected pid = [] ∧ g pid = ⟨[], none⟩

namespace Tracked

variable {n n' : Watched P} {g : ℕ → Lookup} {a : Action (Start P) Pick}

theorem init : Tracked (Watched.init P) fun _ => ⟨[], none⟩ where
  looks pid x st hp := by simp [Watched.init, Model.init] at hp
  reading pid x st hp := by simp [Watched.init, Model.init] at hp
  rows pid payment hmem := by simp at hmem
  last pid answer he := by simp at he
  held pid x st p hp := by simp [Watched.init, Model.init] at hp
  fresh pid _ := ⟨rfl, rfl⟩

/-- The database after a step: the ids that were read are still there. -/
theorem held_step (hT : Tracked n g) (h : Reachable P n.app) (hC : KeepsIds n a) {s' : State P}
    (hs : (payflow P).step n.app a = some s') {pid : ℕ} {x : Start P}
    {st : Status Write Lock Stmt Block Ext Exn Ans SRes BRes ERes} {p : Uuid}
    (hp : n.app.procs[pid]? = some ⟨x, st⟩) (hmay : MayApply p st) {payment : Payment}
    (hmem : payment ∈ n.selected pid) (hid : payment.id = p) : Held s'.db payment := by
  obtain ⟨hsome, row, hrow, hsame⟩ := hT.held pid x st p hp hmay payment hmem hid
  rcases step_commit h hs with hdb | ⟨q, pick, b, now, ws, r, rfl, hat, hreq, hdoes, hdb⟩
  · exact ⟨hsome, row, hdb ▸ hrow, hsame⟩
  · obtain ⟨row', hrow', hkeep⟩ := idAfter_of_does hreq hdoes hrow
    refine ⟨hsome, row', hdb ▸ hrow', fun hst => ?_⟩
    rcases hkeep hst with ⟨hst₀, he⟩ | hafter
    · exact he.trans (hsame hst₀)
    · exact (hC q pick b now ws r rfl hat p row _ (hid ▸ hrow) hafter pid x st hp hmay payment
        hmem hid).symm

theorem passive (hT : Tracked n g) (h : Reachable P n.app) (hC : KeepsIds n a) {s' : State P}
    (ha : ∀ pid pick, a ≠ .step pid pick) (hs : (payflow P).step n.app a = some s')
    (answers : List (String × HttpOutcome)) (hanswers : ∀ r ∈ n.answers, r ∈ answers) :
    Tracked ⟨s', answers, n.selected⟩ g := by
  -- where a process of the new state comes from
  have hcases : ∀ (q : ℕ) y st, s'.procs[q]? = some ⟨y, st⟩ → n.app.procs[q]? = some ⟨y, st⟩ ∨
      st = .killed ∨ n.app.procs[q]? = none ∧ ∃ r, st = .run r ∧
        start P n.app.world y = some r := by
    intro q y st hq
    cases Machine.step_process hs hq with
    | own he => exact absurd he (ha _ _)
    | other hq₀ => exact Or.inl hq₀
    | killed => exact Or.inr (Or.inl rfl)
    | started _ hnone hstart => exact Or.inr (Or.inr ⟨hnone, _, rfl, hstart⟩)
  have hfresh : ∀ q : ℕ, n.app.procs[q]? = none → n.selected q = [] ∧ g q = ⟨[], none⟩ :=
    fun q hq => hT.fresh q (List.getElem?_eq_none_iff.mp hq)
  constructor
  case looks =>
    intro q y st hq
    rcases hcases q y st hq with hq₀ | rfl | ⟨hnone, r, rfl, hstart⟩
    · exact hT.looks q y st hq₀
    · trivial
    · rw [(hfresh q hnone).2]
      exact looks_start hstart
  case reading =>
    intro q y st hq
    rcases hcases q y st hq with hq₀ | rfl | ⟨-, r, rfl, -⟩
    · exact hT.reading q y st hq₀
    · trivial
    · trivial
  case rows => exact hT.rows
  case last => exact fun q answer he => hanswers _ (hT.last q answer he)
  case held =>
    intro q y st p hq hmay payment hmem hid
    rcases hcases q y st hq with hq₀ | rfl | ⟨hnone, -⟩
    · exact hT.held_step h hC hs hq₀ hmay hmem hid
    · exact hmay.elim
    · have hmem : payment ∈ n.selected q := hmem
      rw [(hfresh q hnone).1] at hmem
      cases hmem
  case fresh =>
    exact fun q hq => hT.fresh q (Nat.le_trans (Machine.length_procs_le hs) hq)

theorem active (hT : Tracked n g) (h : Reachable P n.app) {pid : ℕ} {pick : Pick}
    (hC : KeepsIds n (.step pid pick)) {s' : State P}
    (hs : (payflow P).step n.app (.step pid pick) = some s') :
    ∃ g', Tracked ⟨s', n.answers ++ answered n.app (.step pid pick),
      selectedAfter n.selected s' (.step pid pick)⟩ g' := by
  obtain ⟨x, st, st', hp, hp', hadv⟩ := Machine.step_own hs
  obtain ⟨l', hlooks, hrows, hlast, hmay⟩ := looks_own (hT.looks pid x st hp) hadv
  have hlt := (List.getElem?_eq_some_iff.mp hp).1
  -- what it has selected now
  obtain ⟨rows', hsel, hreading, hread⟩ : ∃ rows',
      selectedAfter n.selected s' (.step pid pick) = Function.update n.selected pid rows' ∧
      Reading rows' st' ∧ (rows' = n.selected pid ∨
        l'.rows = [] ∧ ∀ payment ∈ rows', Held s'.db payment) := by
    rcases reading_own (hT.reading pid x st hp) hadv with ⟨ls, now, k, rows', rfl, he⟩ | ⟨hr, hno⟩
    · have hrows' : readRows s' pid = some rows' := by
        unfold readRows
        rw [hp']
      refine ⟨rows', by simp only [selectedAfter, hrows'], ⟨rfl, Or.inr rfl⟩,
        Or.inr ⟨hlooks.1, fun payment hmem => ?_⟩⟩
      obtain ⟨hdb, -⟩ := Machine.advance_open hadv
      rw [hdb]
      exact held_of_mem (inv_of_reachable h) (he ▸ hmem)
    · have hnone : readRows s' pid = none := by
        unfold readRows
        rw [hp']
        split
        · rename_i he
          obtain ⟨-, rfl⟩ := Machine.Proc.mk.inj (Option.some.inj he)
          exact absurd rfl (hno _ _ _ _ _)
        · rfl
      exact ⟨n.selected pid, by simp only [selectedAfter, hnone, Function.update_eq_self], hr,
        Or.inl rfl⟩
  rw [hsel]
  refine ⟨Function.update g pid l', ?_⟩
  constructor
  case looks =>
    intro q y stq hq
    by_cases hqp : q = pid
    · subst hqp
      obtain ⟨rfl, rfl⟩ := Machine.Proc.mk.inj (Option.some.inj (hp'.symm.trans hq))
      rwa [Function.update_self]
    · rw [Function.update_of_ne hqp]
      exact hT.looks q y stq (Machine.step_other hs hqp ▸ hq)
  case reading =>
    intro q y stq hq
    by_cases hqp : q = pid
    · subst hqp
      obtain ⟨rfl, rfl⟩ := Machine.Proc.mk.inj (Option.some.inj (hp'.symm.trans hq))
      show Reading (Function.update n.selected q rows' q) st'
      rwa [Function.update_self]
    · show Reading (Function.update n.selected pid rows' q) stq
      rw [Function.update_of_ne hqp]
      exact hT.reading q y stq (Machine.step_other hs hqp ▸ hq)
  case rows =>
    intro q payment hmem
    show payment ∈ Function.update n.selected pid rows' q
    by_cases hqp : q = pid
    · subst hqp
      rw [Function.update_self] at hmem ⊢
      rcases hread with rfl | ⟨hnil, -⟩
      · rcases hrows with he | ⟨-, ws, ls, now, k, rows, rfl, he⟩
        · exact hT.rows q payment (he ▸ hmem)
        · obtain ⟨-, hbody | hpure⟩ := hT.reading q x _ hp
          · cases hbody
          · rw [he, Prog.pure.inj hpure] at hmem
            exact hmem
      · rw [hnil] at hmem
        cases hmem
    · rw [Function.update_of_ne hqp] at hmem ⊢
      exact hT.rows q payment hmem
  case last =>
    intro q r he
    by_cases hqp : q = pid
    · subst hqp
      rw [Function.update_self] at he
      rcases hlast with hsame | ⟨id, out, k, rfl, rfl, hnew⟩
      · exact List.mem_append_left _ (hT.last q r (hsame ▸ he))
      · obtain rfl := Option.some.inj (hnew.symm.trans he)
        refine List.mem_append_right _ ?_
        simp only [answered, hp, List.mem_singleton]
    · rw [Function.update_of_ne hqp] at he
      exact List.mem_append_left _ (hT.last q r he)
  case held =>
    intro q y stq p hq hm payment hmem hid
    have hmem : payment ∈ Function.update n.selected pid rows' q := hmem
    by_cases hqp : q = pid
    · subst hqp
      obtain ⟨rfl, rfl⟩ := Machine.Proc.mk.inj (Option.some.inj (hp'.symm.trans hq))
      rw [Function.update_self] at hmem
      rcases hread with rfl | ⟨-, hheld⟩
      · exact hT.held_step h hC hs hp (hmay p hm) hmem hid
      · exact hheld payment hmem
    · rw [Function.update_of_ne hqp] at hmem
      exact hT.held_step h hC hs (Machine.step_other hs hqp ▸ hq) hm hmem hid
  case fresh =>
    intro q hq
    have hle : n.app.procs.length ≤ q := Nat.le_trans (Machine.length_procs_le hs) hq
    have hqp : q ≠ pid := by omega
    show Function.update n.selected pid rows' q = [] ∧ Function.update g pid l' q = _
    rw [Function.update_of_ne hqp, Function.update_of_ne hqp]
    exact hT.fresh q hle

theorem step (hT : Tracked n g) (h : Reachable P n.app) (hC : KeepsIds n a)
    (hs : Watched.step n a = some n') : ∃ g', Tracked n' g' := by
  unfold Watched.step at hs
  split at hs
  case h_2 => cases hs
  rename_i s' hstep
  obtain rfl := Option.some.inj hs
  have hanswers : ∀ r ∈ n.answers, r ∈ n.answers ++ answered n.app a :=
    fun r hmem => List.mem_append_left _ hmem
  cases a with
  | step pid pick => exact hT.active h hC hstep
  | _ => exact ⟨g, hT.passive h hC (fun _ _ he => by cases he) hstep _ hanswers⟩

end Tracked

/-! ### The commits -/

/-- **Main result.** While no transaction that leaves a payment in `PROCESSING` replaces an id that
an execution may still apply a status for, reconciliation commits a status only when the provider
has reported it for the id in the payment's row. -/
theorem reconciled_as_reported {n n' : Watched P}
    (h : Reaches Watched.step KeepsIds (Watched.init P) n) {pid : ℕ} {pick : Pick} {p : Uuid}
    {st : PaymentStatus} {now : ℕ} {ws : List Write}
    (hat : Machine.AtCommit n.app pid (.reconcileOne p st) now ws true)
    (hs : Watched.step n (.step pid pick) = some n') :
    ∃ row id out, n.app.db.payment? p = some row ∧ row.providerPaymentId = some id ∧
      (id, out) ∈ n.answers ∧ Reports out st := by
  have hinv : Reachable P n.app ∧ ∃ g, Tracked n g := by
    refine h.invariant (I := fun n => Reachable P n.app ∧ ∃ g, Tracked n g)
      ⟨.refl, _, Tracked.init⟩ fun {n a n'} ⟨hr, g, hT⟩ hC hs => ⟨?_, hT.step hr hC hs⟩
    unfold Watched.step at hs
    split at hs
    · rename_i s' hstep
      obtain rfl := Option.some.inj hs
      exact .step hr trivial hstep
    · cases hs
  obtain ⟨hr, g, hT⟩ := hinv
  obtain ⟨x, ls, k, hp⟩ := hat
  obtain ⟨⟨payment, hmem, rfl, out, hlast, hreports⟩, -⟩ := hT.looks pid x _ hp
  have hmay : MayApply payment.id (.inTxn (.reconcileOne payment.id st)
      ⟨.pure true, ws, ls, now⟩ k) := fun huses => huses.1 st rfl
  obtain ⟨hsome, row, hrow, hsame⟩ := hT.held pid x _ _ hp hmay payment (hT.rows pid _ hmem) rfl
  obtain ⟨id, hid⟩ := Option.ne_none_iff_exists'.mp hsome
  -- the transaction has found the payment in `PROCESSING`
  have hprocessing : row.status = .processing := by
    unfold Watched.step at hs
    split at hs
    · rename_i s' hstep
      obtain ⟨-, ⟨hfalse, -⟩ | ⟨-, row', _, _, hrow', hst, -⟩, -⟩ :=
        atCommit_step hr ⟨x, ls, k, hp⟩ hstep
      · cases hfalse
      · rwa [Option.some.inj (hrow.symm.trans hrow')]
    · cases hs
  refine ⟨row, id, out, hrow, (hsame hprocessing).trans hid, ?_, hreports⟩
  rw [hid] at hlast
  exact hT.last pid _ hlast

/-- The provider is still processing, and the payment waits for its webhook. -/
def awaitScript (pid n : ℕ) : List Act :=
  [answer pid "provider_payment_id" "PROCESSING" n] ++ quiet pid 3 ++
    draw pid [n + 1] ++ quiet pid 1

/-- The provider reports success for a payment that was selected, and the correction is written. -/
def reconcileScript (pid id n : ℕ) : List Act :=
  [answer pid "provider_payment_id" "SUCCEEDED" id] ++ quiet pid 3 ++ draw pid [n, n + 1]

/-- The process is about to commit a correction of the payment. -/
def corrects (s : State examplePlatform) (pid : ℕ) (p : Uuid) : Bool :=
  match s.procs[pid]? with
  | some ⟨_, .inTxn (.reconcileOne p' .succeeded) ⟨.pure r, _, _, _⟩ _⟩ => p' == p && (r : Bool)
  | _ => false

theorem atCommit_of_corrects {s : State examplePlatform} {pid : ℕ} {p : Uuid}
    (h : corrects s pid p = true) :
    ∃ now ws, Machine.AtCommit s pid (.reconcileOne p .succeeded) now ws true := by
  unfold corrects at h
  split at h
  · rename_i x p' r ws ls now k hp
    obtain ⟨he, hr⟩ := Bool.and_eq_true_iff.mp h
    obtain rfl := eq_of_beq he
    cases hr
    exact ⟨now, ws, x, ls, k, hp⟩
  · cases h

/-- No execution has selected anything when a payment stays or becomes `PROCESSING`. -/
def unselected (n : Watched examplePlatform) (a : Act) : Bool :=
  commitCheck (fun _ b => !(b matches .recordAwaitingWebhook _ _ | .recordTransition _ _ _ _ _) ||
    (List.range n.app.procs.length).all fun q => (n.selected q).isEmpty) n.app a

theorem keepsIds_of_unselected (n : Watched examplePlatform) (a : Act)
    (h : unselected n a = true) : KeepsIds n a := by
  rintro pid pick b now ws r rfl ⟨x, ls, k, hp⟩ p row id hrow hafter q y st hq hmay payment hmem hid
  have hev : Machine.event (payflow examplePlatform) n.app (.step pid pick) =
      some (.commit pid b) := by simp only [Machine.event, hp]
  unfold unselected commitCheck at h
  rw [hev] at h
  have hall : ((List.range n.app.procs.length).all fun q => (n.selected q).isEmpty) = true := by
    cases b <;> first | cases hafter | simpa using h
  have hlt := (List.getElem?_eq_some_iff.mp hq).1
  have hempty := List.all_eq_true.mp hall q (List.mem_range.mpr hlt)
  rw [List.isEmpty_iff.mp hempty] at hmem
  cases hmem

/-- A payment whose webhook was lost. -/
theorem reconciled_as_reported_lost : ∃ n : Watched examplePlatform, ∃ row id out,
    n.app.db.payment? (exampleUuid 1) = some row ∧ row.providerPaymentId = some id ∧
      (id, out) ∈ n.answers ∧ Reports out .succeeded := by
  have h : (runSteps Watched.step unselected (Watched.init examplePlatform)
      (createPaymentScript 0 1 ++ startPaymentScript 1 0 4 ++ awaitScript 1 6 ++
        [.tick (11 * second), .start .reconcilePayments] ++ quiet 2 3 ++
          reconcileScript 2 6 10)).bind
      (fun n => (n.step (.step 2 .nothing)).map fun _ => corrects n.app 2 (exampleUuid 1)) =
      some true := by decide +kernel
  obtain ⟨n, hn, h⟩ := Option.bind_eq_some_iff.mp h
  obtain ⟨n', hn', h⟩ := Option.map_eq_some_iff.mp h
  obtain ⟨now, ws, hat⟩ := atCommit_of_corrects h
  exact ⟨n, reconciled_as_reported (Reaches.runSteps keepsIds_of_unselected .refl hn) hat hn'⟩

/-- The task of a payment is delivered twice, and the second delivery replaces the id while
reconciliation waits for the answer to the first: the payment becomes `SUCCEEDED` under an id that
the provider was never asked about. -/
theorem reconciled_as_another : ∃ n n' : Watched examplePlatform, ∃ now ws row,
    Reaches Watched.step (fun _ _ => True) (Watched.init _) n ∧
      Machine.AtCommit n.app 3 (.reconcileOne (exampleUuid 1) .succeeded) now ws true ∧
      Watched.step n (.step 3 .nothing) = some n' ∧
      n.app.db.payment? (exampleUuid 1) = some row ∧
      row.providerPaymentId = some (exampleUuid 20).text ∧
      ∀ out, ((exampleUuid 20).text, out) ∉ n.answers := by
  have h : (runSteps Watched.step (fun _ _ => true) (Watched.init examplePlatform)
      (createPaymentScript 0 1 ++ startPaymentScript 1 0 4 ++ [.start (.task 0)] ++ quiet 2 3 ++
        awaitScript 1 6 ++ [.tick (11 * second), .start .reconcilePayments] ++ quiet 3 3 ++
        awaitScript 2 20 ++ reconcileScript 3 6 10)).bind
      (fun n => (n.step (.step 3 .nothing)).map fun _ => (corrects n.app 3 (exampleUuid 1),
        (n.app.db.payment? (exampleUuid 1)).map (·.providerPaymentId),
        n.answers.all fun r => r.1 != (exampleUuid 20).text)) =
      some (true, some (some (exampleUuid 20).text), true) := by decide +kernel
  obtain ⟨n, hn, h⟩ := Option.bind_eq_some_iff.mp h
  obtain ⟨n', hn', h⟩ := Option.map_eq_some_iff.mp h
  simp only [Prod.mk.injEq] at h
  obtain ⟨hcorrects, hrow, hall⟩ := h
  obtain ⟨now, ws, hat⟩ := atCommit_of_corrects hcorrects
  obtain ⟨row, hrow, hid⟩ := Option.map_eq_some_iff.mp hrow
  refine ⟨n, n', now, ws, row, Reaches.runSteps (fun _ _ _ => trivial) .refl hn, hat,
    hn', hrow, hid,
    fun out hmem => ?_⟩
  have hne := List.all_eq_true.mp hall _ hmem
  simp at hne

end Payflow.Safety
