import Payflow.Spec.Creation

/-! # How a request creates a refund

A call of `create_refund` runs one transaction, which makes a refund or finds the one that has the
call's key, whatever that is a refund of; it sends the task of a new one, and answers. -/

namespace Payflow.Spec

open Payflow.Lib Payflow.Model

/-- The transaction of a call. -/
def refundCreationOf (call : CreateRefund) : Block :=
  .createRefund call.paymentId call.merchantId call.idempotencyKey call.amountCents

/-- The protocol of a call. -/
def refundCallProtocol (call : CreateRefund) :
    Protocol (Call Block Ext) (Call.Res BRes ERes Exn) (Turn Refund) where
  allow
    | .waiting, .txn b => b = refundCreationOf call
    | .won row, .ext (.delay task) => task = .processRefund row.id call.xTestScenario
    | _, _ => False
  next
    | .waiting, .txn (.createRefund _ _ _ _), .ok (row, duplicate) =>
      if duplicate then .same row else .won row
    | .won row, .ext (.delay _), true => .sent row
    | turn, _, _ => turn

/-- What a call may answer. -/
def RefundCallReturns (turn : Turn Refund) : Ans → Prop
  | .refund r => (turn = .sent r.refund ∧ r.duplicate = false) ∨
    (turn = .same r.refund ∧ r.duplicate = true)
  | _ => False

/-- The refund has the key of the call. -/
def RefundMatches (call : CreateRefund) (row : Refund) : Prop :=
  row.merchantId = call.merchantId ∧ row.idempotencyKey = call.idempotencyKey

/-- The refund holds the request of the call. -/
structure RefundStored (call : CreateRefund) (row : Refund) : Prop where
  key : RefundMatches call row
  paymentId : row.paymentId = call.paymentId
  amountCents : row.amountCents = call.amountCents

/-- The task works on the refund. -/
def ofRefund (q : Uuid) : Task → Bool
  | .processPayment _ _ => false
  | .processRefund q' _ => q' = q

/-- The transaction makes a refund. -/
def MakesRefund : Block → Prop
  | .createRefund _ _ _ _ => True
  | _ => False

/-- The creation of refunds. -/
def refundCreation (P : Platform) : Creation P where
  Request := CreateRefund
  Row := Refund
  request?
    | .createRefund call => some call
    | _ => none
  id := Refund.id
  find := Db.refund?
  Later := RefundLe
  Stored := RefundStored
  Matches := RefundMatches
  Makes := MakesRefund
  ofTask := ofRefund
  protocol := refundCallProtocol
  Returns _ := RefundCallReturns

section lawful

variable {P : Platform} {call : CreateRefund}

theorem follows_createRefund :
    (createRefund call).Follows (refundCallProtocol call)
      (fun turn r => RefundCallReturns turn (.refund r)) (fun _ _ => True) .waiting := by
  refine ⟨rfl, fun r => ?_⟩
  cases r with
  | error e => trivial
  | ok r =>
    obtain ⟨refund, duplicate⟩ := r
    cases duplicate with
    | true => exact Or.inr ⟨rfl, rfl⟩
    | false =>
      refine ⟨rfl, fun sent => ?_⟩
      cases sent with
      | false => trivial
      | true => exact Or.inl ⟨rfl, rfl⟩

theorem RefundMatches.later {row row' : Refund} (h : RefundMatches call row)
    (hle : RefundLe row row') : RefundMatches call row' := by
  obtain ⟨cols, rfl, -⟩ := hle
  exact h

theorem RefundStored.later {row row' : Refund} (h : RefundStored call row)
    (hle : RefundLe row row') : RefundStored call row' := by
  obtain ⟨cols, rfl, -⟩ := hle
  exact ⟨h.key, h.paymentId, h.amountCents⟩

theorem refund_before {b : Block} {now : ℕ} {D : Db} {ws : List Write} {r : BRes b}
    (hreq : Requires b D) (h : Does P b now D ws r) (hb : ¬ MakesRefund b) {q : Uuid}
    {row' : Refund}
    (hq' : (store.applyAll D ws).refund? q = some row') : ∃ row, D.refund? q = some row := by
  have hstep := refund_step hreq h q
  rw [hq'] at hstep
  generalize D.refund? q = before at hstep
  cases hstep with
  | new hb' =>
    subst hb'
    exact absurd trivial hb
  | keep => exact ⟨_, rfl⟩
  | move => exact ⟨_, rfl⟩

theorem refund?_createRefundWrites {D : Db} {now : ℕ} {row : Payment} {refund : Refund}
    {e₁ e₂ e₃ : Uuid} (hid : D.refund? refund.id = none) (q : Uuid) :
    (store.applyAll D (createRefundWrites now row refund e₁ e₂ e₃)).refund? q =
      if q = refund.id then some refund else D.refund? q := by
  show (D.apply (.insertRefund refund)).refund? q = _
  by_cases hq : q = refund.id
  · rw [if_pos hq, hq]
    exact refund?_insert_self hid
  · rw [if_neg hq]
    exact refund?_insert (Ne.symm hq)

/-- A commit of a call makes its refund or gets the one with its key. -/
theorem refund_commit {turn : Turn Refund} {b : Block} {now : ℕ} {D : Db} {ws : List Write}
    {r : BRes b} (hallow : (refundCallProtocol call).allow turn (.txn b))
    (hdoes : Does P b now D ws r) :
    turn = .waiting ∧
      ((∃ row, (refundCallProtocol call).next turn (.txn b) (.ok r : Except Exn (BRes b)) = .won row ∧
        D.refund? row.id = none ∧ RefundStored call row ∧
        ∀ q, (store.applyAll D ws).refund? q = if q = row.id then some row else D.refund? q) ∨
      (ws = [] ∧
        ((refundCallProtocol call).next turn (.txn b) (.ok r : Except Exn (BRes b)) = .waiting ∨
        ∃ row,
          (refundCallProtocol call).next turn (.txn b) (.ok r : Except Exn (BRes b)) = .same row ∧
          RefundMatches call row ∧ ∃ row', D.refund? row.id = some row' ∧ RefundLe row row'))) := by
  have hwaiting : turn = .waiting := by
    cases turn <;> first | rfl | exact hallow.elim
  subst hwaiting
  obtain rfl := hallow
  refine ⟨rfl, ?_⟩
  rcases hdoes with ⟨row, id, c, e₁, e₂, e₃, -, hid, -, -, -, -, -, -, -, rfl, rfl⟩ |
    ⟨row, ⟨D₀, hi₀, hle, hkey⟩, rfl, rfl⟩
  · exact Or.inl ⟨_, rfl, hid, ⟨⟨rfl, rfl⟩, rfl, rfl⟩, refund?_createRefundWrites hid⟩
  · obtain ⟨hmem, hpair⟩ := find?_key hkey
    have hq : D₀.refund? row.id = some row := find?_key_of_mem hi₀.refund_ids hmem
    exact Or.inr ⟨rfl, Or.inr ⟨row, rfl, Prod.mk.inj hpair, hle.refund hq⟩⟩

theorem refund_ext {turn : Turn Refund} {e : Ext}
    (hallow : (refundCallProtocol call).allow turn (.ext e)) :
    ∃ row task, turn = .won row ∧ e = .delay task ∧ (∀ q, ofRefund q task = true → q = row.id) ∧
      ∀ r : Bool, (refundCallProtocol call).next (.won row) (.ext (.delay task)) r =
        if r then .sent row else .won row := by
  cases turn with
  | won row =>
    cases e with
    | delay task =>
      obtain rfl := hallow
      refine ⟨row, _, rfl, rfl, fun q hq => ?_, fun r => ?_⟩
      · exact (of_decide_eq_true hq).symm
      · cases r <;> rfl
    | _ => exact hallow.elim
  | _ => cases e <;> exact hallow.elim

end lawful

theorem refundCreation_lawful (P : Platform) : (refundCreation P).Lawful where
  refl := .refl
  trans h h' := RefundLe.trans _ _ _ h h'
  later hle _ _ hq := hle.refund hq
  stored hle h := h.later hle
  back hreq hdoes hb _ _ hq' := refund_before hreq hdoes hb hq'
  commit := refund_commit
  error := by
    intro call turn b e
    cases turn <;> cases b <;> rfl
  ext hallow := Or.inr (refund_ext hallow)

theorem refundCreation_other {P : Platform} {w : World} {x : Start P} {o : Call Block Ext}
    (h : operations w x o) (hx : ∀ call, x ≠ .createRefund call) : (refundCreation P).Other o := by
  constructor
  · rintro b rfl hmakes
    cases b with
    | createRefund p m k a =>
      cases x with
      | createRefund call => exact hx call rfl
      | task i =>
        obtain ⟨m, -, hop⟩ := h
        cases ht : m.task <;> simp [ht, taskOperations] at hop
      | _ => exact h
    | _ => exact hmakes
  · rintro e task rfl hsends q
    rcases request_of_sends h hsends with ⟨-, p, scenario, -, rfl⟩ | ⟨call, q', scenario, rfl, -⟩
    · rfl
    · exact absurd rfl (hx call)

/-- **The processes keep to the protocols of the creation.** -/
theorem refundCreation_discipline (P : Platform) :
    Machine.Lawful (refundCreation P).discipline where
  start := by
    intro w x p h
    refine ⟨_, rfl, ?_⟩
    have huses := uses_start h
    cases x with
    | createRefund call =>
      obtain rfl := Option.some.inj h
      exact Prog.Follows.bind follows_createRefund fun _ _ hr => hr
    | _ =>
      refine huses.follows (fun o ho => ⟨?_, fun _ => rfl⟩) (fun _ => trivial) fun _ => trivial
      exact refundCreation_other ho fun call hcall => by simp at hcall
  ext _ hrole := hrole
  finish _ _ _ _ _ hrole := hrole

end Payflow.Spec
