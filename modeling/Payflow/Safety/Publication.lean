import Payflow.Spec.Publishing

/-! # No event is lost

An event of the outbox waits to be published, or it has been published and is in the stream. An
invocation that fails leaves it as it was, or puts it off by at most five minutes. -/

namespace Payflow.Safety

open Payflow.Lib Payflow.Model Payflow.Spec

section

variable {P : Platform} {s s' : OutboxState P}

/-- The start of the last invocation that has updated the event, or its creation. -/
def lastTouch (s : OutboxState P) (row : OutboxEvent) : ℕ :=
  match lastMark s.marks row.id with
  | some m => m.startedAt
  | none => row.createdAt

/-- The event is pending, and every invocation that starts five minutes later can select it. -/
structure Waits (s : OutboxState P) (row : OutboxEvent) : Prop where
  status : row.status = .pending
  publishedAt : row.publishedAt = none
  availableAt : row.availableAt ≤ lastTouch s row + 300 * second
  selectable : ∀ now tie, lastTouch s row + 300 * second ≤ now → row ∈ dueEvents now tie s.rows

/-- The event is published, and in the stream. -/
structure InStream (s : OutboxState P) (row : OutboxEvent) : Prop where
  status : row.status = .published
  publishedAt : row.publishedAt.isSome = true
  entry : ∃ x ∈ s.stream, x.eventId = row.id.text ∧ x.aggregateId = row.aggregateId.text ∧
    x.eventType = row.eventType.text ∧ x.payload = String.ofList row.payload.jsonb.dumps

theorem waits_of_pending {row : OutboxEvent} (hrow : row ∈ s.rows) (hst : row.status = .pending)
    (hpub : row.publishedAt = none) (havail : row.availableAt ≤ lastTouch s row + 300 * second) :
    Waits s row := by
  refine ⟨hst, hpub, havail, fun now tie hnow => ?_⟩
  have hdue : isDue now row = true := by
    simp only [isDue, hst, hpub, decide_true, Option.isNone_none, Bool.true_and, decide_eq_true_eq]
    omega
  exact (List.perm_insertionSort _ _).mem_iff.mpr (List.mem_filter.mpr ⟨hrow, hdue⟩)

/-- **Every event waits or is in the stream.** -/
theorem waits_or_inStream (h : OutboxOk s) {row : OutboxEvent} (hrow : row ∈ s.rows) :
    Waits s row ∨ InStream s row := by
  obtain ⟨base, hbase, rfl⟩ := List.mem_map.mp hrow
  obtain ⟨hnew, -⟩ := (outboxNew_of_reachable h.app).rows base hbase
  cases hm : lastMark s.marks base.id with
  | none =>
    -- the row is as it was inserted
    have hsame : marked s.marks base = base := by
      unfold marked
      rw [hm]
    rw [hsame] at hrow ⊢
    refine Or.inl (waits_of_pending hrow hnew.status hnew.publishedAt ?_)
    unfold lastTouch
    rw [hm, hnew.availableAt]
    exact Nat.le_add_right _ _
  | some m =>
    obtain ⟨hmem, hid⟩ := lastMark_some hm
    have hset : marked s.marks base = base.set m.cols := by
      unfold marked
      rw [hm]
    have htouch : lastTouch s (marked s.marks base) = m.startedAt := by
      unfold lastTouch
      rw [marked_id, hm]
    obtain ⟨row, hrow', hid', hcols⟩ := h.marks m hmem
    obtain rfl := eq_of_key h.ids hbase hrow' (hid.symm.trans hid'.symm)
    rcases hcols with ⟨hst, hpub, havail⟩ | ⟨hst, hpub, hentry⟩
    · refine Or.inl (waits_of_pending hrow ?_ ?_ ?_)
      · rw [hset]
        exact hst
      · rw [hset]
        exact hpub
      · rw [htouch, hset]
        exact havail
    · refine Or.inr ⟨?_, ?_, streamEntry base, hentry, ?_⟩
      · rw [hset]
        exact hst
      · rw [hset]
        exact hpub
      · rw [hset]
        exact ⟨rfl, rfl, rfl, rfl⟩

theorem pending_of_mark (h : OutboxOk s) {i : ℕ} {p : Publisher} (hp : s.publishers[i]? = some p)
    {m : Mark} (hm : m ∈ p.marks) {row : OutboxEvent} (hrow : row ∈ s.app.db.outboxEvents)
    (hid : row.id = m.event) : (marked s.marks row).status = .pending := by
  have hheld : m.event ∈ held p := by
    unfold held
    exact List.mem_append_left _ (List.mem_append_left _ (List.mem_map_of_mem hm))
  obtain ⟨row', hrow', hid', hst, -⟩ := (h.publishers i p hp).due _ hheld
  obtain rfl := eq_of_key h.ids hrow hrow' (hid.trans hid'.symm)
  exact hst

theorem published_step (h : OutboxOk s) {a : OutboxAction P} (hs : s.step a = some s') :
    s.app.db.outboxEvents ⊆ s'.app.db.outboxEvents ∧ ∀ row ∈ s.app.db.outboxEvents,
      (marked s.marks row).status = .published → marked s'.marks row = marked s.marks row := by
  rcases outbox_step_cases hs with ⟨b, app, rfl, happ, rfl⟩ | ⟨batchSize, rfl, rfl⟩ |
    ⟨i, b, p, p', es, ns, rfl, hp, hmoves, rfl⟩
  · exact ⟨(outboxEvents_grows h.app happ).subset, fun _ _ _ => rfl⟩
  · exact ⟨List.Subset.refl _, fun _ _ _ => rfl⟩
  · refine ⟨List.Subset.refl _, fun row hrow hst => marked_append fun m hm hid => ?_⟩
    obtain ⟨-, hns, -⟩ := publisherOk_advance h hp hmoves
    have hpending := pending_of_mark h hp (hns m hm) hrow hid.symm
    simp [hst] at hpending

theorem published_run (h : OutboxOk s) (hs : Reaches OutboxState.step (fun _ _ => True) s s') :
    OutboxOk s' ∧ s.app.db.outboxEvents ⊆ s'.app.db.outboxEvents ∧
      ∀ row ∈ s.app.db.outboxEvents, (marked s.marks row).status = .published →
        marked s'.marks row = marked s.marks row := by
  induction hs with
  | refl => exact ⟨h, List.Subset.refl _, fun _ _ _ => rfl⟩
  | step _ _ hs ih =>
    obtain ⟨hok, hB, hsame⟩ := ih
    obtain ⟨hB', hsame'⟩ := published_step hok hs
    refine ⟨outboxOk_step hok hs, List.Subset.trans hB hB', fun row hrow hst => ?_⟩
    have hst' := hsame row hrow hst
    rw [hsame' row (hB hrow) (hst' ▸ hst), hst']

end

/-- **Main result.** In every state of a run with any invocations, an event of the outbox waits or
is in the stream; later it is still there, and as it was if it was published. -/
theorem no_event_lost {P : Platform} {s s' : OutboxState P}
    (h : OutboxReachable P (fun _ _ => True) s)
    (hs : Reaches OutboxState.step (fun _ _ => True) s s') :
    (∀ row ∈ s.rows, Waits s row ∨ InStream s row) ∧
    ∀ row ∈ s.rows, ∃ row' ∈ s'.rows, row'.id = row.id ∧ streamEntry row' = streamEntry row ∧
      (∀ r ∈ s'.rows, r.id = row.id → r = row') ∧ (row.status = .published → row' = row) := by
  have hok := outboxOk_of_reachable h
  refine ⟨fun row hrow => waits_or_inStream hok hrow, fun row hrow => ?_⟩
  obtain ⟨base, hbase, rfl⟩ := List.mem_map.mp hrow
  obtain ⟨hok', hB, hsame⟩ := published_run hok hs
  refine ⟨marked s'.marks base, List.mem_map_of_mem (hB hbase), by simp, by simp, ?_,
    hsame base hbase⟩
  intro r hr hid
  obtain ⟨base', hbase', rfl⟩ := List.mem_map.mp hr
  obtain rfl := eq_of_key hok'.ids hbase' (hB hbase) (by simpa using hid)
  rfl

/-- The second of two events is published, then the first. -/
theorem no_event_lost_firstFails : ∃ s s' : OutboxState examplePlatform,
    (s.rows.map (·.status) = [.pending, .published] ∧
      s'.rows.map (·.status) = [.published, .published]) ∧
    (∀ row ∈ s.rows, Waits s row ∨ InStream s row) ∧
    ∀ row ∈ s.rows, ∃ row' ∈ s'.rows, row'.id = row.id ∧ streamEntry row' = streamEntry row ∧
      (∀ r ∈ s'.rows, r.id = row.id → r = row') ∧ (row.status = .published → row' = row) := by
  have h : (runSteps OutboxState.step (fun _ _ => true) (.init _) firstFails).bind (fun s =>
      (runSteps OutboxState.step (fun _ _ => true) s (appScript [.tick (2 * second)] ++
        selectScript 1 1 ++ addScript 1 [.returned] ++ [.publisher 1 .commit])).map fun s' =>
        (s.rows.map (·.status), s'.rows.map (·.status))) =
      some ([.pending, .published], [.published, .published]) := by
    decide +kernel
  obtain ⟨s, hs, h⟩ := Option.bind_eq_some_iff.mp h
  obtain ⟨s', hs', h⟩ := Option.map_eq_some_iff.mp h
  exact ⟨s, s', Prod.mk.inj h, no_event_lost (.runSteps (fun _ _ _ => trivial) .refl hs)
    (.runSteps (fun _ _ _ => trivial) .refl hs')⟩

end Payflow.Safety
