import Payflow.Spec.Operations
import Payflow.Spec.PaymentCreation
import Payflow.Spec.RefundCreation

/-! # The task of a payment or a refund

A retry repeats the task of its message, and the task of a payment or a refund is sent for the first
time once: all its messages have one scenario. -/

namespace Payflow.Spec

open Payflow.Lib Payflow.Model

variable {P : Platform} {w : World}

/-- All tasks about one thing are the same. -/
def SameTask (of : Uuid → Task → Bool) (w : World) : Prop := ∀ i j id t t',
  taskOf w i = some t → taskOf w j = some t' → of id t = true → of id t' = true → t = t'

/-- The task of every message has been sent for the first time. -/
def Firsts (w : World) : Prop :=
  ∀ m ∈ w.messages, ∃ m₀ ∈ w.messages, m₀.task = m.task ∧ m₀.retries = 0

theorem Firsts.append (h : Firsts w) {task : Task} {retries pid : ℕ}
    (hfirst : retries = 0 ∨ ∃ m ∈ w.messages, m.task = task) :
    Firsts ⟨w.messages ++ [⟨task, retries, pid, false⟩]⟩ := by
  intro m hm
  rcases List.mem_append.mp hm with hm | hm
  · obtain ⟨m₀, hm₀, htask⟩ := h m hm
    exact ⟨m₀, List.mem_append_left _ hm₀, htask⟩
  · obtain rfl := List.mem_singleton.mp hm
    rcases hfirst with rfl | ⟨m₁, hm₁, rfl⟩
    · exact ⟨_, List.mem_append_right _ (List.mem_singleton_self _), rfl, rfl⟩
    · obtain ⟨m₀, hm₀, htask⟩ := h m₁ hm₁
      exact ⟨m₀, List.mem_append_left _ hm₀, htask⟩

theorem Firsts.finish (h : Firsts w) (x : Start P) (out : Except Exn Ans) :
    Firsts (finish P x out w) := by
  cases x with
  | task i =>
    -- an acknowledgement changes neither task nor retries
    have hkey : (w.messages.modify i fun m => { m with acked := true }).map
        (fun m => (m.task, m.retries)) = w.messages.map fun m => (m.task, m.retries) := by
      refine List.ext_getElem? fun j => ?_
      simp only [List.getElem?_map, List.getElem?_modify]
      cases w.messages[j]? with
      | none => rfl
      | some m =>
        by_cases hj : i = j <;> simp [hj]
    intro m hm
    have hm : (m.task, m.retries) ∈ w.messages.map fun m => (m.task, m.retries) :=
      hkey ▸ List.mem_map_of_mem (f := fun m : Message => (m.task, m.retries)) hm
    obtain ⟨m₁, hm₁, he⟩ := List.mem_map.mp hm
    obtain ⟨m₂, hm₂, htask, hretries⟩ := h m₁ hm₁
    have hm₂ : (m₂.task, m₂.retries) ∈ (w.messages.modify i fun m => { m with acked := true }).map
        fun m => (m.task, m.retries) := hkey ▸ List.mem_map_of_mem hm₂
    obtain ⟨m₀, hm₀, he₀⟩ := List.mem_map.mp hm₂
    refine ⟨m₀, hm₀, ?_, ?_⟩
    · rw [(Prod.mk.inj he₀).1, htask, (Prod.mk.inj he).1]
    · rw [(Prod.mk.inj he₀).2, hretries]
  | _ => exact h

theorem task_of_sendRetry {x : Start P} {task : Task} {retries : ℕ}
    (h : operations w x (.ext (.sendRetry task retries))) : ∃ m ∈ w.messages, m.task = task := by
  cases x with
  | task i =>
    obtain ⟨m, hm, hop⟩ := h
    refine ⟨m, List.mem_of_getElem? hm, ?_⟩
    cases ht : m.task with
    | processPayment p scenario | processRefund q scenario =>
      rw [ht] at hop
      exact hop.1.symm
  | _ => exact h.elim

theorem firsts_step {s s' : State P} {g g' : ℕ → Unit} {ev : Event Block Ext (Start P)}
    (h : Firsts s.world) (hs : Machine.Guided (operating P) rely (contract P) s g ev s' g') :
    Firsts s'.world := by
  cases hs with
  | @ext pid pick x e k w i r hp hi hallow hx =>
    obtain rfl := operations_of_operationsOf hi
    have hallow : operations s.world x (.ext e) := hallow
    rcases ext_cases hx with rfl | ⟨task, retries, hsends, rfl⟩
    · exact h
    · refine h.append ?_
      cases e with
      | delay task' => exact Or.inl hsends.2
      | sendRetry task' n =>
        obtain ⟨rfl, rfl⟩ := hsends
        exact Or.inr (task_of_sendRetry hallow)
      | _ => exact hsends.elim
  | @finishOk pid x a => exact h.finish x (.ok a)
  | @finishError pid x e => exact h.finish x (.error e)
  | _ => exact h

theorem firsts_of_reachable {s : State P} (h : Reachable P s) : Firsts s.world := by
  obtain ⟨g, -, hfirsts⟩ := Machine.ReachableBy.guided (fulfils P) (operating_lawful P)
    (C := fun _ _ => True) (J := fun s _ => Firsts s.world) (good_init P) rfl (by simp [Firsts, init])
    (fun hI _ _ hs => firsts_step hI hs) (h.imp fun _ _ _ _ _ => trivial)
  exact hfirsts

theorem first_of_task {s : State P} (h : Reachable P s) {f : Task → Bool} {i : ℕ} {t : Task}
    (ht : taskOf s.world i = some t) (hf : f t = true) :
    ∃ m ∈ s.world.messages.filter fun m => m.retries = 0 ∧ f m.task = true, m.task = t := by
  obtain ⟨m, hm, rfl⟩ := Option.map_eq_some_iff.mp ht
  obtain ⟨m₀, hm₀, htask, hretries⟩ := firsts_of_reachable h m (List.mem_of_getElem? hm)
  exact ⟨m₀, List.mem_filter.mpr ⟨hm₀, by simp [hretries, htask, hf]⟩, htask⟩

/-- **All messages of a row have one task.** -/
theorem sameTask_of_reachable {C : Creation P} (hC : C.Lawful) (hstart : Machine.Lawful C.discipline)
    (hnone : ∀ id, C.find Db.empty id = none) {s : State P} (h : Reachable P s) :
    SameTask C.ofTask s.world := by
  obtain ⟨g, -, -, hsenders⟩ := Creation.creating_of_reachable hC hstart hnone h
  intro i j id t t' hi hj hof hof'
  obtain ⟨m, hm, rfl⟩ := first_of_task h hi hof
  obtain ⟨m', hm', rfl⟩ := first_of_task h hj hof'
  have hone := hsenders.once id
  unfold firstSenders at hone
  rw [List.length_map] at hone
  have hone : (s.world.messages.filter
    fun m => m.retries = 0 ∧ C.ofTask id m.task = true).length ≤ 1 := hone
  generalize s.world.messages.filter
    (fun m => m.retries = 0 ∧ C.ofTask id m.task = true) = l at hm hm' hone
  cases l with
  | nil => simp at hm
  | cons a l =>
    have hl : l = [] := by simpa using hone
    subst hl
    rw [List.mem_singleton.mp hm, List.mem_singleton.mp hm']

/-- **A task is sent after its row is made.** -/
theorem row_of_task {C : Creation P} (hC : C.Lawful) (hstart : Machine.Lawful C.discipline)
    (hnone : ∀ id, C.find Db.empty id = none) {s : State P} (h : Reachable P s) {i : ℕ} {id : Uuid}
    {t : Task} (ht : taskOf s.world i = some t) (hof : C.ofTask id t = true) :
    ∃ row, C.find s.db id = some row := by
  obtain ⟨g, -, hmakers, hsenders⟩ := Creation.creating_of_reachable hC hstart hnone h
  obtain ⟨m, hm, -⟩ := first_of_task h ht hof
  obtain ⟨row, hsent, rfl⟩ := hsenders.sender id m.sender (List.mem_map_of_mem hm)
  obtain ⟨-, -, -, row', hrow', -⟩ := hmakers.winner m.sender row (Or.inr hsent)
  exact ⟨row', hrow'⟩

theorem samePaymentTask {s : State P} (h : Reachable P s) : SameTask ofPayment s.world :=
  sameTask_of_reachable (paymentCreation_lawful P) (paymentCreation_discipline P) (fun _ => rfl) h

theorem sameRefundTask {s : State P} (h : Reachable P s) : SameTask ofRefund s.world :=
  sameTask_of_reachable (refundCreation_lawful P) (refundCreation_discipline P) (fun _ => rfl) h

theorem payment_of_task {s : State P} (h : Reachable P s) {i : ℕ} {p : Uuid} {scenario : Scenario}
    (ht : taskOf s.world i = some (.processPayment p scenario)) :
    ∃ row, s.db.payment? p = some row :=
  row_of_task (paymentCreation_lawful P) (paymentCreation_discipline P) (fun _ => rfl) h ht
    (by simp [paymentCreation, ofPayment])

theorem refund_of_task {s : State P} (h : Reachable P s) {i : ℕ} {q : Uuid}
    {scenario : RefundScenario} (ht : taskOf s.world i = some (.processRefund q scenario)) :
    ∃ refund, s.db.refund? q = some refund :=
  row_of_task (refundCreation_lawful P) (refundCreation_discipline P) (fun _ => rfl) h ht
    (by simp [refundCreation, ofRefund])

end Payflow.Spec
