import Payflow.Lib.Batches
import Payflow.Safety.Batch
import Payflow.Safety.Publication

/-! # The outbox is emptied

Nothing that was left behind, by invocations that were killed or by entries that Redis refused,
keeps `publish_pending_outbox_events` from its work for good: once no invocation is at work and five
minutes have passed, every further invocation whose entries Redis takes publishes a full batch, until
no event is pending. -/

namespace Payflow.Safety

open Payflow.Lib Payflow.Model Payflow.Spec

variable {P : Platform} {s s' : OutboxState P}

/-! ### What the invocations leave -/

/-- An update that leaves its event pending leaves its attempts countable, and it has been made by
an invocation that began before. -/
def MarkFit (clock : ℕ) (m : Mark) : Prop :=
  m.startedAt ≤ clock ∧ (m.cols.status = .pending → m.cols.attempts < 1024)

/-- An invocation began before, and its updates are of this kind; if it has ended, it holds no
lock. -/
structure PublisherFit (clock : ℕ) (p : Publisher) : Prop where
  now : p.now ≤ clock
  marks : ∀ m ∈ p.marks, MarkFit clock m
  ended : p.phase = .committed ∨ p.phase = .rolledBack → p.locks = []

/-- What the invocations leave does not stop another one. -/
structure Fit (s : OutboxState P) : Prop where
  marks : ∀ m ∈ s.marks, MarkFit s.app.clock m
  publishers : ∀ p ∈ s.publishers, PublisherFit s.app.clock p

theorem MarkFit.later {m : Mark} {clock clock' : ℕ} (h : MarkFit clock m) (hle : clock ≤ clock') :
    MarkFit clock' m :=
  ⟨Nat.le_trans h.1 hle, h.2⟩

theorem PublisherFit.later {p : Publisher} {clock clock' : ℕ} (h : PublisherFit clock p)
    (hle : clock ≤ clock') : PublisherFit clock' p :=
  ⟨Nat.le_trans h.now hle, fun m hm => (h.marks m hm).later hle, h.ended⟩

theorem PublisherFit.finish {p : Publisher} {clock : ℕ} (h : PublisherFit clock p)
    (phase : PublisherPhase) : PublisherFit clock (p.finish phase) :=
  ⟨h.now, fun _ hm => absurd hm List.not_mem_nil, fun _ => rfl⟩

theorem markFit_update {clock now : ℕ} (hnow : now ≤ clock) {event : Uuid} {added : Bool}
    {row : OutboxEvent} {cols : OutboxCols}
    (h : (if added then publishedCols now row else backoffCols now row) = some cols) :
    MarkFit clock ⟨event, now, cols⟩ := by
  refine ⟨hnow, fun hpending => ?_⟩
  unfold publishedCols backoffCols at h
  split_ifs at h with hadded hcount hcount
  · obtain rfl := Option.some.inj h
    cases hpending
  · obtain rfl := Option.some.inj h
    exact hcount.2

theorem fit_moves {clock i : ℕ} {p p' : Publisher} {a : PublisherAction} {es : List StreamEntry}
    {ns : List Mark} (h : PublisherFit clock p) (hm : Moves s i p a p' es ns) :
    PublisherFit clock p' ∧ ∀ m ∈ ns, MarkFit clock m := by
  have hnone : ∀ m ∈ ([] : List Mark), MarkFit clock m := fun _ hm => absurd hm List.not_mem_nil
  cases hm with
  | select tie hphase => exact ⟨⟨h.now, h.marks, by simp⟩, hnone⟩
  | locked cs hphase _ => exact ⟨⟨h.now, h.marks, by simp⟩, hnone⟩
  | skip c cs ls hphase _ _ => exact ⟨⟨h.now, h.marks, by simp⟩, hnone⟩
  | take c cs hphase _ _ _ => exact ⟨⟨h.now, h.marks, by simp⟩, hnone⟩
  | xadd event events reply hphase _ => exact ⟨⟨h.now, h.marks, by simp⟩, hnone⟩
  | update event added cols hphase hcols =>
    refine ⟨⟨h.now, fun m hm => ?_, by simp⟩, hnone⟩
    rcases List.mem_append.mp hm with hm | hm
    · exact h.marks m hm
    · obtain rfl := List.mem_singleton.mp hm
      exact markFit_update h.now hcols
  | refused event added hphase => exact ⟨h.finish _, hnone⟩
  | commit hphase hevents => exact ⟨h.finish _, h.marks⟩
  | rollback => exact ⟨h.finish _, hnone⟩

theorem fit_step (h : Fit s) {a : OutboxAction P} (hs : s.step a = some s') : Fit s' := by
  rcases outbox_step_cases hs with ⟨b, app, rfl, happ, rfl⟩ | ⟨batchSize, rfl, rfl⟩ |
    ⟨i, b, p, p', es, ns, rfl, hp, hmoves, rfl⟩
  · have hle : s.app.clock ≤ app.clock := Machine.clock_le happ
    exact ⟨fun m hm => (h.marks m hm).later hle, fun p hp => (h.publishers p hp).later hle⟩
  · refine ⟨h.marks, fun p hp => ?_⟩
    rcases List.mem_append.mp hp with hp | hp
    · exact h.publishers p hp
    · obtain rfl := List.mem_singleton.mp hp
      exact ⟨Nat.le_refl _, fun _ hm => absurd hm List.not_mem_nil, fun _ => rfl⟩
  · obtain ⟨hp', hns⟩ := fit_moves (h.publishers p (List.mem_of_getElem? hp)) hmoves
    refine ⟨fun m hm => ?_, fun q hq => ?_⟩
    · rcases List.mem_append.mp hm with hm | hm
      · exact h.marks m hm
      · exact hns m hm
    · rcases List.mem_or_eq_of_mem_set hq with hq | rfl
      · exact h.publishers q hq
      · exact hp'

theorem fit_of_reachable {C : OutboxState P → OutboxAction P → Prop} (h : OutboxReachable P C s) :
    Fit s := by
  refine h.invariant ?_ fun hfit _ hs => fit_step hfit hs
  exact ⟨fun _ hm => absurd hm List.not_mem_nil, fun _ hp => absurd hp List.not_mem_nil⟩

/-! ### The events that are pending -/

/-- A pending event has not been published, can be tried again, and is due five minutes later at the
latest. -/
theorem pending_fit (hok : OutboxOk s) (hfit : Fit s) {row : OutboxEvent} (hrow : row ∈ s.rows)
    (hst : row.status = .pending) : row.publishedAt = none ∧ row.attempts + 1 < 2 ^ 31 ∧
      row.availableAt ≤ s.app.clock + 300 * second := by
  obtain ⟨base, hbase, rfl⟩ := List.mem_map.mp hrow
  obtain ⟨hnew, hcreated⟩ := (outboxNew_of_reachable hok.app).rows base hbase
  cases hm : lastMark s.marks base.id with
  | none =>
    have hsame : marked s.marks base = base := by
      unfold marked
      rw [hm]
    rw [hsame]
    refine ⟨hnew.publishedAt, ?_, ?_⟩
    · rw [hnew.attempts]
      decide
    · rw [hnew.availableAt]
      omega
  | some m =>
    obtain ⟨hmem, hid⟩ := lastMark_some hm
    have hset : marked s.marks base = base.set m.cols := by
      unfold marked
      rw [hm]
    rw [hset] at hst ⊢
    obtain ⟨hstarted, hattempts⟩ := hfit.marks m hmem
    have hlt := hattempts hst
    obtain ⟨row, hrow', hid', ⟨-, hpub, havail⟩ | ⟨hpublished, -⟩⟩ := hok.marks m hmem
    · refine ⟨hpub, ?_, ?_⟩
      · show m.cols.attempts + 1 < 2 ^ 31
        omega
      · show m.cols.availableAt ≤ _
        omega
    · exact absurd (hst.symm.trans hpublished) (by decide)

/-- The number of events that are pending. -/
def pendingEvents (s : OutboxState P) : ℕ := s.rows.countP fun row => row.status = .pending

/-! ### One batch -/

/-- No invocation is at work: each has ended, or was killed. -/
def Resting (s : OutboxState P) : Prop :=
  ∀ p ∈ s.publishers, p.phase = .committed ∨ p.phase = .rolledBack

/-- All pending events are due. -/
def Due (s : OutboxState P) : Prop :=
  ∀ row ∈ s.rows, row.status = .pending → row.availableAt ≤ s.app.clock

/-- Time passes, an invocation begins, and it goes on alone to its end; Redis takes its entries. -/
def OneBatch (batchSize : ℕ) (s s' : OutboxState P) : Prop :=
  ∃ d tie s₁ s₂, s.step (.app (.tick d)) = some s₁ ∧ s₁.step (.publish batchSize) = some s₂ ∧
    Reaches OutboxState.step (Follows s.publishers.length tie fun _ => .returned) s₂ s' ∧
    Ended s' s.publishers.length

/-- Consecutive invocations. -/
inductive Batches (batchSize : ℕ) (s : OutboxState P) : ℕ → OutboxState P → Prop
  | zero : Batches batchSize s 0 s
  | succ {n s' s''} : Batches batchSize s n s' → OneBatch batchSize s' s'' →
    Batches batchSize s (n + 1) s''

theorem begun {batchSize d : ℕ} {s₁ s₂ : OutboxState P} (htick : s.step (.app (.tick d)) = some s₁)
    (hpublish : s₁.step (.publish batchSize) = some s₂) :
    s₂.app.db = s.app.db ∧ s₂.app.clock = s.app.clock + d ∧ s₂.marks = s.marks ∧
      s₂.publishers =
        s.publishers ++ [publishPendingOutboxEvents (s.app.clock + d) batchSize] := by
  obtain rfl := Option.some.inj htick
  obtain rfl := Option.some.inj hpublish
  exact ⟨rfl, rfl, rfl, rfl⟩

theorem unlocked (hfit : Fit s) (hrest : Resting s) {s₂ : OutboxState P} {p : Publisher}
    (hpublishers : s₂.publishers = s.publishers ++ [p]) (id : Uuid) :
    s₂.locked s.publishers.length id = false := by
  unfold OutboxState.locked
  rw [hpublishers, List.eraseIdx_append_of_length_le (Nat.le_refl _)]
  have hfree : ∀ q ∈ s.publishers, q.locks = [] := fun q hq =>
    (hfit.publishers q hq).ended (hrest q hq)
  simpa using fun q hq => by simp [hfree q hq]

theorem filter_isDue (hok : OutboxOk s) (hfit : Fit s) (hdue : Due s) {now : ℕ}
    (hnow : s.app.clock ≤ now) :
    s.rows.filter (isDue now) = s.rows.filter fun row => row.status = .pending := by
  refine List.filter_congr fun row hrow => ?_
  by_cases hst : row.status = .pending
  · have hpub := (pending_fit hok hfit hrow hst).1
    have havail := hdue row hrow hst
    simp only [isDue, hst, hpub, decide_true, Option.isNone_none, Bool.true_and, decide_eq_true_eq]
    omega
  · simp [isDue, hst]

/-- Which events are left after the commit of an invocation whose entries Redis takes. -/
theorem pendingEvents_committed (hids : (s.app.db.outboxEvents.map (·.id)).Nodup) {i : ℕ}
    {tie : Uuid → ℕ} {p : Publisher} (hlocked : ∀ id, s.locked i id = false)
    (hdue : s.rows.filter (isDue p.now) = s.rows.filter fun row => row.status = .pending)
    (h : Committed s s' i tie (fun _ => .returned) p) :
    pendingEvents s' = pendingEvents s - p.batchSize := by
  have hselected : selectedEvents s i tie p = (dueEvents p.now tie s.rows).take p.batchSize := by
    simp [selectedEvents, hlocked]
  have hperm : (dueEvents p.now tie s.rows).Perm (s.rows.filter fun row => row.status = .pending) :=
    hdue ▸ List.perm_insertionSort _ _
  have hn : ((dueEvents p.now tie s.rows).map (·.id)).Nodup :=
    (hperm.map _).nodup_iff.mpr ((rows_ids hids).sublist (List.filter_sublist.map _))
  set due := dueEvents p.now tie s.rows
  have hleft := length_filter_not_mem_take (fun e : OutboxEvent => e.id) hn p.batchSize
  have hrows := h.rows
  rw [hselected] at hrows
  generalize (due.take p.batchSize).map (fun e : OutboxEvent => e.id) = ids at hleft hrows
  have hrow : ∀ row ∈ s.rows, decide ((if row.id ∈ ids then afterXadd p.now .returned row
      else row).status = .pending) = (decide (row.status = .pending) && decide (row.id ∉ ids)) := by
    intro row _
    split_ifs with hmem
    · simp [afterXadd, hmem]
    · simp [hmem]
  calc pendingEvents s'
    _ = s.rows.countP fun row => decide ((if row.id ∈ ids then afterXadd p.now .returned row
          else row).status = .pending) := by
      unfold pendingEvents
      rw [hrows, List.countP_map]
      rfl
    _ = s.rows.countP fun row => decide (row.status = .pending) && decide (row.id ∉ ids) :=
      List.countP_congr fun row hr => by rw [hrow row hr]
    _ = ((s.rows.filter fun row => row.status = .pending).filter fun row => row.id ∉ ids).length := by
      rw [List.filter_filter, List.countP_eq_length_filter]
      congr 1
      exact List.filter_congr fun row _ => Bool.and_comm _ _
    _ = (due.filter fun row => row.id ∉ ids).length := ((hperm.filter _).length_eq).symm
    _ = due.length - p.batchSize := hleft
    _ = pendingEvents s - p.batchSize := by
      rw [hperm.length_eq, pendingEvents, List.countP_eq_length_filter]

/-- **One batch** is published, of the size of the batch while that many events are pending. -/
theorem OneBatch.pending (hok : OutboxOk s) (hfit : Fit s) (hrest : Resting s) (hdue : Due s)
    {batchSize : ℕ} (h : OneBatch batchSize s s') :
    pendingEvents s' = pendingEvents s - batchSize ∧ Resting s' ∧ Due s' := by
  obtain ⟨d, tie, s₁, s₂, htick, hpublish, hrun, hend⟩ := h
  obtain ⟨hdb, hclock, hmarks, hpublishers⟩ := begun htick hpublish
  have hp : s₂.publishers[s.publishers.length]? =
      some (publishPendingOutboxEvents (s.app.clock + d) batchSize) := by
    rw [hpublishers]
    exact List.getElem?_concat_length
  have hids : (s₂.app.db.outboxEvents.map (·.id)).Nodup := hdb ▸ hok.ids
  have hrows : s₂.rows = s.rows := by
    unfold OutboxState.rows
    rw [hdb, hmarks]
  have hpending : pendingEvents s₂ = pendingEvents s := by
    unfold pendingEvents
    rw [hrows]
  rcases ended_cases hids hp hrun hend with ⟨-, hcommitted⟩ | ⟨⟨e, he, hcount⟩, -⟩
  · refine ⟨?_, ?_, ?_⟩
    · have hleft := pendingEvents_committed hids (unlocked hfit hrest hpublishers)
        (by rw [hrows]; exact filter_isDue hok hfit hdue (Nat.le_add_right _ d)) hcommitted
      rw [hleft, hpending]
      rfl
    · intro p hp'
      obtain ⟨q, hq, hended⟩ := hend
      obtain ⟨q', hq', hok'⟩ := runOk_of_reaches hids hp hrun
      obtain ⟨j, hj⟩ := List.mem_iff_getElem?.mp hp'
      by_cases he : j = s.publishers.length
      · subst he
        obtain rfl := Option.some.inj (hj.symm.trans hq)
        exact hended
      · have hother : p ∈ s'.publishers.eraseIdx s.publishers.length :=
          List.mem_eraseIdx_iff_getElem?.mpr ⟨j, he, hj⟩
        rw [hok'.others, hpublishers, List.eraseIdx_append_of_length_le (Nat.le_refl _)] at hother
        exact hrest p (by simpa using hother)
    · intro row' hrow' hst'
      rw [hcommitted.rows, hrows] at hrow'
      obtain ⟨row, hrow, rfl⟩ := List.mem_map.mp hrow'
      rw [hcommitted.app, hclock]
      split_ifs at hst' ⊢ with hmem
      · simp [afterXadd] at hst'
      · exact Nat.le_trans (hdue row hrow hst') (Nat.le_add_right _ d)
  · -- an event that was tried less than 1024 times can be counted once more
    obtain ⟨hmem, hisDue⟩ := selectedEvents_subset he
    rw [hrows] at hmem
    simp only [isDue, Bool.and_eq_true, decide_eq_true_eq] at hisDue
    have hcountable := (pending_fit hok hfit hmem hisDue.1.1).2.1
    simp only [countable, decide_eq_false_iff_not] at hcount
    exact absurd hcountable hcount

theorem OneBatch.reaches {batchSize : ℕ} (h : OneBatch batchSize s s') :
    Reaches OutboxState.step (fun _ _ => True) s s' := by
  obtain ⟨d, tie, s₁, s₂, htick, hpublish, hrun, -⟩ := h
  have hbegun : Reaches OutboxState.step (fun _ _ => True) s s₂ :=
    .step (.step .refl trivial htick) trivial hpublish
  exact hbegun.trans (hrun.imp fun _ _ _ => trivial)

/-- There is a next batch, however the events that were created at the same time are ordered. -/
theorem OneBatch.exists (batchSize : ℕ) (s : OutboxState P) : ∃ s', OneBatch batchSize s s' := by
  obtain ⟨s₁, htick⟩ : ∃ s₁, s.step (.app (.tick 0)) = some s₁ := ⟨_, rfl⟩
  obtain ⟨s₂, hpublish⟩ : ∃ s₂, s₁.step (.publish batchSize) = some s₂ := ⟨_, rfl⟩
  obtain ⟨-, -, -, hpublishers⟩ := begun htick hpublish
  have hp : s₂.publishers[s.publishers.length]? =
      some (publishPendingOutboxEvents (s.app.clock + 0) batchSize) := by
    rw [hpublishers]
    exact List.getElem?_concat_length
  obtain ⟨s', hrun, hend⟩ := ends (fun _ => 0) (fun _ => .returned) hp (Nat.le_refl _)
  exact ⟨s', 0, _, s₁, s₂, htick, hpublish, hrun, hend⟩

/-! ### All batches -/

section batches

variable {batchSize n : ℕ}

theorem Batches.exists (batchSize : ℕ) (s : OutboxState P) : ∀ n, ∃ s', Batches batchSize s n s'
  | 0 => ⟨s, .zero⟩
  | n + 1 => by
    obtain ⟨s', hbatches⟩ := Batches.exists batchSize s n
    obtain ⟨s'', hbatch⟩ := OneBatch.exists batchSize s'
    exact ⟨s'', .succ hbatches hbatch⟩

theorem Batches.reaches (h : Batches batchSize s n s') :
    Reaches OutboxState.step (fun _ _ => True) s s' := by
  induction h with
  | zero => exact .refl
  | succ _ hbatch ih => exact ih.trans hbatch.reaches

theorem Batches.pending (hreach : OutboxReachable P (fun _ _ => True) s) (hrest : Resting s)
    (hdue : Due s) (h : Batches batchSize s n s') :
    pendingEvents s' = pendingEvents s - n * batchSize ∧ Resting s' ∧ Due s' := by
  induction h with
  | zero => exact ⟨by omega, hrest, hdue⟩
  | @succ n s' s'' hbatches hbatch ih =>
    obtain ⟨hpending, hrest', hdue'⟩ := ih
    have hreach' : OutboxReachable P (fun _ _ => True) s' := hreach.trans hbatches.reaches
    obtain ⟨hnext, hrest'', hdue''⟩ :=
      hbatch.pending (outboxOk_of_reachable hreach') (fit_of_reachable hreach') hrest' hdue'
    refine ⟨?_, hrest'', hdue''⟩
    rw [hnext, hpending, Nat.succ_mul, Nat.sub_sub]

end batches

/-- **The outbox is emptied.** In every run, once no invocation is at work and five minutes have
passed, `n` further invocations one after another, whose entries Redis takes, publish a full batch
each as long as there are events, and when they were enough, every event is in the stream. -/
theorem outbox_drains (h : OutboxReachable P (fun _ _ => True) s) (hrest : Resting s) {d : ℕ}
    (hd : 300 * second ≤ d) (batchSize : ℕ) :
    ∃ s₀, s.step (.app (.tick d)) = some s₀ ∧ ∀ n, (∃ s', Batches batchSize s₀ n s') ∧
      ∀ s', Batches batchSize s₀ n s' →
        pendingEvents s' = pendingEvents s - n * batchSize ∧
        (pendingEvents s ≤ n * batchSize → ∀ row ∈ s'.rows, InStream s' row) := by
  obtain ⟨s₀, htick⟩ : ∃ s₀, s.step (.app (.tick d)) = some s₀ := ⟨_, rfl⟩
  obtain ⟨hrows, hpublishers, hclock⟩ : s₀.rows = s.rows ∧ s₀.publishers = s.publishers ∧
      s₀.app.clock = s.app.clock + d := by
    obtain rfl := Option.some.inj htick
    exact ⟨rfl, rfl, rfl⟩
  have hreach₀ : OutboxReachable P (fun _ _ => True) s₀ := .step h trivial htick
  have hrest₀ : Resting s₀ := fun p hp => hrest p (hpublishers ▸ hp)
  have hdue₀ : Due s₀ := by
    intro row hrow hst
    rw [hrows] at hrow
    have havail := (pending_fit (outboxOk_of_reachable h) (fit_of_reachable h) hrow hst).2.2
    omega
  have hsame : pendingEvents s₀ = pendingEvents s := by
    unfold pendingEvents
    rw [hrows]
  refine ⟨s₀, htick, fun n => ⟨Batches.exists batchSize s₀ n, fun s' hbatches => ?_⟩⟩
  obtain ⟨hpending, -, -⟩ := hbatches.pending hreach₀ hrest₀ hdue₀
  rw [hsame] at hpending
  refine ⟨hpending, fun henough row hrow => ?_⟩
  rcases waits_or_inStream (outboxOk_of_reachable (hreach₀.trans hbatches.reaches)) hrow with
    hwaits | hin
  · -- nothing is pending any more
    have hzero : pendingEvents s' = 0 := by omega
    have hnot := List.countP_eq_zero.mp hzero row hrow
    simp [hwaits.status] at hnot
  · exact hin

/-- Two events, of which one was refused and one was published. -/
theorem outbox_drains_firstFails : ∃ s : OutboxState examplePlatform,
    pendingEvents s = 1 ∧ Resting s ∧
    ∃ s₀, s.step (.app (.tick (300 * second))) = some s₀ ∧ ∀ n, (∃ s', Batches 100 s₀ n s') ∧
      ∀ s', Batches 100 s₀ n s' →
        pendingEvents s' = pendingEvents s - n * 100 ∧
        (pendingEvents s ≤ n * 100 → ∀ row ∈ s'.rows, InStream s' row) := by
  have h : (runSteps OutboxState.step (fun _ _ => true) (.init _) firstFails).map
      (fun s => (pendingEvents s, s.publishers.all fun p => p.result.isSome)) =
        some (1, true) := by
    decide +kernel
  obtain ⟨s, hs, h⟩ := Option.map_eq_some_iff.mp h
  obtain ⟨hpending, hended⟩ := Prod.mk.inj h
  have hrest : Resting s := by
    intro p hp
    have hresult := List.all_eq_true.mp hended p hp
    unfold Publisher.result at hresult
    split at hresult
    · exact Or.inl ‹_›
    · cases hresult
  exact ⟨s, hpending, hrest,
    outbox_drains (.runSteps (fun _ _ _ => trivial) .refl hs) hrest (Nat.le_refl _) 100⟩

end Payflow.Safety
