import Payflow.Spec.Footprint
import Payflow.Spec.Runs

/-! # Refunds end in two transactions

A task that has recorded the last status of a refund calls one more transaction, the one that
completes the refund or restores the payment (`followUp`). Nothing else calls these two, and only
the tasks of a refund change it. -/

namespace Payflow.Spec

open Payflow.Lib Payflow.Model

/-- The transaction that has to follow. -/
def followUp : Block → Option Block
  | .recordRefundTransition q _ .succeeded _ _ => some (.completeSuccessfulRefund q)
  | .recordRefundTransition q _ .failed _ _ => some (.restorePaymentAfterFailedRefund q)
  | _ => none

/-- What a process that works on the refund may do when nothing has to follow. -/
def mayDo (q : Option Uuid) : Call Block Ext → Prop
  | .txn (.completeSuccessfulRefund _) | .txn (.restorePaymentAfterFailedRefund _) => False
  | .txn (.recordRefundTransition q' _ _ _ _) => q = some q'
  | _ => True

/-- The state is the transaction that has to follow. -/
def refundProtocol (q : Option Uuid) :
    Protocol (Call Block Ext) (Call.Res BRes ERes Exn) (Option Block) where
  allow
    | none, o => mayDo q o
    | some b, o => o = .txn b
  next
    | _, .txn b, .ok _ => followUp b
    | _, _, _ => none

/-- The refund of a task. -/
def refundOf : Task → Option Uuid
  | .processRefund q _ => some q
  | .processPayment _ _ => none

/-- A process works on the refund of its task; every other one works on none. -/
def refundRole {P : Platform} (w : World) : Start P → Option (Option Uuid)
  | .task i => (taskOf w i).map refundOf
  | _ => some none

/-- A process ends where nothing has to follow. -/
def refundDiscipline (P : Platform) : Discipline (payflow P) (Option Uuid) (Option Block) where
  role := refundRole
  protocol := refundProtocol
  first := none
  Returns _ due _ := due = none
  Raises _ due _ := due = none

section programs

variable {α : Type} {q : Option Uuid}

/-- From where `due` has to follow on, the program keeps to the protocol, and ends with nothing that
has to follow. -/
abbrev Ends (q : Option Uuid) (due : Option Block) {α : Type} (p : Proc α) : Prop :=
  p.Follows (refundProtocol q) (fun due _ => due = none) (fun due _ => due = none) due

/-- What is done when nothing has to follow, and makes nothing follow. -/
def Neutral (q : Option Uuid) (o : Call Block Ext) : Prop :=
  mayDo q o ∧ ∀ b, o = .txn b → followUp b = none

theorem ends_of_uses {S : Call Block Ext → Prop} {p : Proc α} (h : UsesOnly S p)
    (hS : ∀ o, S o → Neutral q o) : Ends q none p := by
  refine h.follows (fun o ho => ?_) (fun _ => rfl) fun _ => rfl
  obtain ⟨hmay, hnext⟩ := hS o ho
  refine ⟨hmay, fun r => ?_⟩
  cases o with
  | txn b =>
    cases r with
    | ok r => exact hnext b rfl
    | error e => rfl
  | ext e => rfl

theorem ends_txn {b : Block} {k : BRes b → Proc α} (hb : Neutral q (.txn b))
    (hk : ∀ r, Ends q none (k r)) : Ends q none ((txn b).bind k) := by
  refine ⟨hb.1, fun r => ?_⟩
  cases r with
  | error e => exact rfl
  | ok r =>
    show Ends q (followUp b) (k r)
    rw [hb.2 b rfl]
    exact hk r

theorem ends_last {q : Uuid} {type : EventType} {new : RefundStatus} {provider : Json}
    {failure : Option String} {b : Block} {a : α}
    (hb : followUp (.recordRefundTransition q type new provider failure) = some b) :
    Ends (some q) none ((txn (.recordRefundTransition q type new provider failure)).bind fun _ =>
      (txn b).bind fun _ => .pure a) := by
  have hdone : followUp b = none := by
    cases new <;> simp only [followUp, Option.some.injEq, reduceCtorEq] at hb <;> subst hb <;> rfl
  refine ⟨rfl, fun r => ?_⟩
  cases r with
  | error e => exact rfl
  | ok r =>
    show Ends (some q) (followUp (.recordRefundTransition q type new provider failure)) _
    rw [hb]
    refine ⟨rfl, fun r => ?_⟩
    cases r with
    | error e => exact rfl
    | ok r => exact hdone

theorem ends_processRefund (retries : ℕ) (q : Uuid) (scenario : RefundScenario) :
    Ends (some q) none (processRefund retries q scenario) := by
  have hnone : ∀ {b : Block}, mayDo (some q) (.txn b) → followUp b = none →
      Neutral (some q) (.txn b) := by
    intro b hmay hb
    refine ⟨hmay, fun b' hb' => ?_⟩
    obtain rfl := Call.txn.inj hb'
    exact hb
  have hresponse : ∀ {transient unavailable rejected out},
      Ends (some q) none (providerResponse transient unavailable rejected out) :=
    ends_of_uses (S := fun _ => False) uses_providerResponse fun _ h => h.elim
  refine ends_txn (hnone trivial rfl) fun refund => ?_
  cases refund with
  | none => exact rfl
  | some refund =>
    have htry : Ends (some q) none (processRefundTry q refund scenario) := by
      refine ends_txn (hnone trivial rfl) fun payment => ?_
      cases payment.bind (·.providerPaymentId) with
      | none => exact rfl
      | some providerPaymentId =>
        refine Prog.Follows.bind ⟨trivial, fun out => hresponse⟩ fun due result hdue => ?_
        subst hdue
        refine Prog.Follows.ofExcept (fun _ _ => rfl) fun status _ =>
          Prog.Follows.ofExcept (fun _ _ => rfl) fun provider _ => ?_
        exact Prog.Follows.ite (fun _ => ends_last rfl) fun _ => ends_last rfl
    have hexcept : ∀ e, Ends (some q) none (processRefundExcept retries q scenario e) := by
      intro e
      cases e with
      | transientProviderError message =>
        refine ends_txn (hnone trivial rfl) fun _ => ?_
        refine Prog.Follows.ite (fun _ => ends_last rfl) fun _ => ?_
        exact ends_of_uses (uses_retry (S := fun o => o = .ext (.sendRetry _ _)) rfl)
          fun o ho => ho ▸ ⟨trivial, fun b hb => by simp at hb⟩
      | permanentProviderError message => exact ends_last rfl
      | _ => exact rfl
    have hrest : Ends (some q) none ((processRefundTry q refund scenario).handle
        (processRefundExcept retries q scenario)) := by
      refine Prog.Follows.handle htry fun due e hdue => ?_
      subst hdue
      exact hexcept e
    refine Prog.Follows.ite (fun _ => rfl) fun _ => Prog.Follows.ite (fun _ => rfl) fun _ => ?_
    exact Prog.Follows.ite (fun _ => ends_txn (hnone rfl rfl) fun _ => hrest) fun _ => hrest

theorem neutral_of_operations {P : Platform} {w : World} {x : Start P} {o : Call Block Ext}
    (h : operations w x o) (hx : ∀ i, x = .task i → ∀ q scenario,
      taskOf w i ≠ some (.processRefund q scenario)) : Neutral none o := by
  cases x with
  | task i =>
    obtain ⟨m, hm, hop⟩ := h
    have htask := hx i rfl
    simp only [taskOf, hm, Option.map_some, ne_eq, Option.some.injEq] at htask
    cases ht : m.task with
    | processRefund q scenario => exact absurd ht (htask q scenario)
    | processPayment p scenario =>
      rw [ht] at hop
      cases o with
      | txn b =>
        refine ⟨?_, fun b' hb' => ?_⟩
        · cases b <;> trivial
        · obtain rfl := Call.txn.inj hb'
          cases b <;> first | rfl | exact hop.elim
      | ext e => exact ⟨trivial, fun b' hb' => by simp at hb'⟩
  | _ =>
    cases o with
    | txn b =>
      refine ⟨?_, fun b' hb' => ?_⟩
      · cases b <;> trivial
      · obtain rfl := Call.txn.inj hb'
        cases b <;> first | rfl | exact h.elim
    | ext e => exact ⟨trivial, fun b' hb' => by simp at hb'⟩

end programs

/-- **The processes keep to the protocol of the refunds.** -/
theorem refund_lawful (P : Platform) : Machine.Lawful (refundDiscipline P) where
  start := by
    intro w x p h
    have huses := uses_start h
    cases x with
    | task i =>
      cases ht : taskOf w i with
      | none =>
        obtain hm := Option.map_eq_none_iff.mp ht
        have h : start P w (.task i) = some p := h
        simp [start, hm] at h
      | some t =>
        refine ⟨refundOf t, by simp [refundDiscipline, refundRole, ht], ?_⟩
        cases t with
        | processPayment p scenario =>
          refine ends_of_uses huses fun o ho =>
            neutral_of_operations ho fun j hj q scenario' hq => ?_
          obtain rfl := Start.task.inj hj
          simp [ht] at hq
        | processRefund q scenario =>
          obtain ⟨m, hm, htask⟩ := Option.map_eq_some_iff.mp ht
          have h : start P w (.task i) = some p := h
          simp only [start, hm] at h
          split_ifs at h
          obtain rfl := Option.some.inj h
          simp only [runTask, htask]
          exact Prog.Follows.bind (ends_processRefund _ _ _) fun _ _ hdue => hdue
    | _ =>
      refine ⟨none, rfl, ends_of_uses huses fun o ho => neutral_of_operations ho fun i hi => ?_⟩
      simp at hi
  ext := by
    intro pid pick w e w' x q r h hrole
    cases x with
    | task i =>
      obtain ⟨t, ht, rfl⟩ := Option.map_eq_some_iff.mp hrole
      show (taskOf w' i).map refundOf = _
      rw [taskOf_ext h ht, Option.map_some]
    | _ => exact hrole
  finish := by
    intro y out w x q hrole
    cases x with
    | task i =>
      show (taskOf (finish P y out w) i).map refundOf = _
      rw [taskOf_finish]
      exact hrole
    | _ => exact hrole

end Payflow.Spec
