import Payflow.Spec.Publishing

/-! # One event that fails does not harm the others

An invocation of `publish_pending_outbox_events` alone, on any table, with any batch size and any
pattern of replies to its `XADD`s. All its events are in one transaction, and the one statement that
can fail for a row is the update of its `attempts`: `POWER(2, attempts + 1)` is refused from
`attempts + 1 = 1024` on, and `attempts` is an `INTEGER`. Either every selected event is marked as
its reply says, or one such event undoes the marks of all. -/

namespace Payflow.Safety

open Payflow.Lib Payflow.Model Payflow.Spec

variable {P : Platform} {s s' : OutboxState P} {i : ℕ} {p₀ p : Publisher} {tie : Uuid → ℕ}
  {replies : Uuid → XaddReply}

/-- The next step of an invocation that is not killed. -/
def nextStep (tie : Uuid → ℕ) (replies : Uuid → XaddReply) (p : Publisher) :
    Option PublisherAction :=
  match p.phase, p.events with
  | .started, _ => some (.select tie)
  | .locking _, _ => some .lock
  | .publishing, event :: _ => some (.xadd (replies event.id))
  | .publishing, [] => some .commit
  | .updating _ _, _ => some .update
  | .committed, _ | .rolledBack, _ => none

/-- The step is the next one of the invocation `i`. -/
def Follows (i : ℕ) (tie : Uuid → ℕ) (replies : Uuid → XaddReply) (s : OutboxState P)
    (a : OutboxAction P) : Prop :=
  ∃ p b, s.publishers[i]? = some p ∧ nextStep tie replies p = some b ∧ a = .publisher i b

/-- The invocation `i` has ended. -/
def Ended (s : OutboxState P) (i : ℕ) : Prop :=
  ∃ p, s.publishers[i]? = some p ∧ (p.phase = .committed ∨ p.phase = .rolledBack)

/-- The events that the invocation selects: the oldest that are due and not locked by others. -/
def selectedEvents (s : OutboxState P) (i : ℕ) (tie : Uuid → ℕ) (p : Publisher) :
    List OutboxEvent :=
  ((dueEvents p.now tie s.rows).filter fun e => !s.locked i e.id).take p.batchSize

/-- The row of an event after its `XADD`. -/
def afterXadd (now : ℕ) (reply : XaddReply) (row : OutboxEvent) : OutboxEvent :=
  match reply with
  | .returned =>
    { row with status := .published, attempts := row.attempts + 1, publishedAt := some now }
  | .redisError _ => { row with
      status := .pending
      attempts := row.attempts + 1
      availableAt := now + min (2 ^ (row.attempts + 1)) 300 * second }

/-- The update of the row does not raise. -/
def countable (reply : XaddReply) (row : OutboxEvent) : Bool :=
  match reply with
  | .returned => decide (row.attempts + 1 < 2 ^ 31)
  | .redisError _ => decide (row.attempts + 1 < 1024)

/-- The invocation `p` has committed: every selected event is as its reply says, and no other row
has changed. -/
structure Committed (s s' : OutboxState P) (i : ℕ) (tie : Uuid → ℕ) (replies : Uuid → XaddReply)
    (p : Publisher) : Prop where
  app : s'.app = s.app
  rows : s'.rows = s.rows.map fun row =>
    if row.id ∈ (selectedEvents s i tie p).map (·.id) then afterXadd p.now (replies row.id) row
    else row
  result : ∃ p' published failed, s'.publishers[i]? = some p' ∧
    p'.result = some ⟨(selectedEvents s i tie p).length, published, failed, outboxStream⟩ ∧
    published = ((selectedEvents s i tie p).filter fun e => replies e.id = .returned).length ∧
    published + failed = (selectedEvents s i tie p).length

/-! ### The selected events -/

theorem mem_rows_of_due {now : ℕ} {e : OutboxEvent} (h : e ∈ dueEvents now tie s.rows) :
    e ∈ s.rows ∧ isDue now e = true :=
  List.mem_filter.mp ((List.perm_insertionSort _ _).mem_iff.mp h)

theorem marked_row {e : OutboxEvent} (h : e ∈ s.rows) : marked s.marks e = e := by
  obtain ⟨row, -, rfl⟩ := List.mem_map.mp h
  exact marked_marked (List.prefix_refl _) row

theorem rows_ids (hids : (s.app.db.outboxEvents.map (·.id)).Nodup) : (s.rows.map (·.id)).Nodup := by
  have hsame : s.rows.map (·.id) = s.app.db.outboxEvents.map (·.id) := by
    simp [OutboxState.rows, Function.comp_def]
  rwa [hsame]

theorem selectedEvents_subset {e : OutboxEvent} (h : e ∈ selectedEvents s i tie p) :
    e ∈ s.rows ∧ isDue p.now e = true :=
  mem_rows_of_due (List.mem_filter.mp (List.mem_of_mem_take h)).1

theorem selectedEvents_ids (hids : (s.app.db.outboxEvents.map (·.id)).Nodup) :
    ((selectedEvents s i tie p).map (·.id)).Nodup := by
  have hperm := (List.perm_insertionSort (fun a b : OutboxEvent => a.createdAt < b.createdAt ∨
    a.createdAt = b.createdAt ∧ tie a.id ≤ tie b.id) (s.rows.filter (isDue p.now))).map (·.id)
  have hdue : ((dueEvents p.now tie s.rows).map (·.id)).Nodup :=
    hperm.nodup_iff.mpr ((rows_ids hids).sublist (List.filter_sublist.map _))
  exact hdue.sublist (((List.take_sublist _ _).trans List.filter_sublist).map _)

/-! ### The updates -/

/-- The update after the `XADD` of an event. -/
def markAfter (now : ℕ) (reply : XaddReply) (e : OutboxEvent) : Mark :=
  let row := afterXadd now reply e
  ⟨e.id, now, ⟨row.status, row.attempts, row.availableAt, row.publishedAt⟩⟩

theorem set_markAfter (now : ℕ) (reply : XaddReply) (e : OutboxEvent) :
    e.set (markAfter now reply e).cols = afterXadd now reply e := by
  cases reply <;> rfl

theorem update_cols {now : ℕ} {reply : XaddReply} {e : OutboxEvent} (hdue : isDue now e = true) :
    (if decide (reply = .returned) = true then publishedCols now e else backoffCols now e) =
      if countable reply e then some (markAfter now reply e).cols else none := by
  simp only [isDue, Bool.and_eq_true, decide_eq_true_eq] at hdue
  cases reply with
  | returned => simp [publishedCols, markAfter, afterXadd, countable]
  | redisError appended =>
    have hint : e.attempts + 1 < 1024 ↔ e.attempts + 1 < 2 ^ 31 ∧ e.attempts + 1 < 1024 := by omega
    simp only [countable, decide_eq_true_eq]
    rw [if_neg (by simp), if_congr hint rfl rfl]
    simp [backoffCols, markAfter, afterXadd, hdue.1.1]

/-! ### A run -/

/-- The events `done` have been tried, and `rest` have not. -/
structure Tried (s : OutboxState P) (i : ℕ) (tie : Uuid → ℕ) (replies : Uuid → XaddReply)
    (p₀ p : Publisher) (done rest : List OutboxEvent) : Prop where
  split : selectedEvents s i tie p₀ = done ++ rest
  countable : ∀ e ∈ done, countable (replies e.id) e
  marks : p.marks = done.map fun e => markAfter p₀.now (replies e.id) e
  selected : p.selected = (selectedEvents s i tie p₀).length
  published : p.published = (done.filter fun e => replies e.id = .returned).length
  failed : p.failed = (done.filter fun e => !decide (replies e.id = .returned)).length

/-- What an invocation has done, by its phase. -/
def PhaseOk (s : OutboxState P) (i : ℕ) (tie : Uuid → ℕ) (replies : Uuid → XaddReply)
    (p₀ p : Publisher) (marks : List Mark) : Prop :=
  match p.phase with
  | .started => marks = s.marks ∧ p = p₀
  | .locking cs => marks = s.marks ∧ p.marks = [] ∧ p.published = 0 ∧ p.failed = 0 ∧
    p.selected = p.events.length ∧ p.selected ≤ p₀.batchSize ∧ ∃ done,
      dueEvents p₀.now tie s.rows = done ++ cs ∧ p.events = done.filter fun e => !s.locked i e.id
  | .publishing => marks = s.marks ∧ ∃ done, Tried s i tie replies p₀ p done p.events
  | .updating event added => marks = s.marks ∧ added = decide (replies event.id = .returned) ∧
    ∃ done, Tried s i tie replies p₀ p done (event :: p.events)
  | .committed => (∀ e ∈ selectedEvents s i tie p₀, countable (replies e.id) e) ∧
    marks = s.marks ++ ((selectedEvents s i tie p₀).map fun e =>
      markAfter p₀.now (replies e.id) e) ∧
    p.selected = (selectedEvents s i tie p₀).length ∧
    p.published = ((selectedEvents s i tie p₀).filter fun e => replies e.id = .returned).length ∧
    p.failed =
      ((selectedEvents s i tie p₀).filter fun e => !decide (replies e.id = .returned)).length
  | .rolledBack =>
    marks = s.marks ∧ ∃ e ∈ selectedEvents s i tie p₀, countable (replies e.id) e = false

/-- What a run of an invocation alone keeps. -/
structure RunOk (s : OutboxState P) (i : ℕ) (tie : Uuid → ℕ) (replies : Uuid → XaddReply)
    (p₀ : Publisher) (s' : OutboxState P) (p : Publisher) : Prop where
  app : s'.app = s.app
  others : s'.publishers.eraseIdx i = s.publishers.eraseIdx i
  batchSize : p.batchSize = p₀.batchSize
  now : p.now = p₀.now
  phase : PhaseOk s i tie replies p₀ p s'.marks

section step

variable {b : PublisherAction} {p' : Publisher} {es : List StreamEntry} {ns : List Mark}

theorem moved {q : Publisher} {es' : List StreamEntry} {ns' : List Mark}
    (h : some (q, es', ns') = some (p', es, ns)) : q = p' ∧ ns' = ns := by
  obtain ⟨rfl, hrest⟩ := Prod.mk.inj (Option.some.inj h)
  exact ⟨rfl, (Prod.mk.inj hrest).2⟩

theorem RunOk.locked (h : RunOk s i tie replies p₀ s' p) (id : Uuid) :
    s'.locked i id = s.locked i id := by
  unfold OutboxState.locked
  rw [h.others]

theorem RunOk.sameRows (h : RunOk s i tie replies p₀ s' p) (hm : s'.marks = s.marks) :
    s'.rows = s.rows := by
  unfold OutboxState.rows
  rw [h.app, hm]

theorem phaseOk_select (h : RunOk s i tie replies p₀ s' p) (hphase : p.phase = .started)
    (hstart : p₀.events = [] ∧ p₀.marks = [] ∧ p₀.selected = 0 ∧ p₀.published = 0 ∧ p₀.failed = 0)
    (ha : s'.advance i p (.select tie) = some (p', es, ns)) :
    PhaseOk s i tie replies p₀ p' (s'.marks ++ ns) := by
  have hok := h.phase
  simp only [PhaseOk, hphase] at hok
  obtain ⟨hm, rfl⟩ := hok
  obtain ⟨hevents, hmarks, hselected, hpublished, hfailed⟩ := hstart
  simp only [OutboxState.advance, hphase] at ha
  obtain ⟨rfl, rfl⟩ := moved ha
  refine ⟨by simpa using hm, hmarks, hpublished, hfailed, ?_, ?_, [], ?_, hevents⟩
  · rw [hselected, hevents]
    rfl
  · rw [hselected]
    exact Nat.zero_le _
  · rw [h.sameRows hm]
    rfl

theorem phaseOk_lock (h : RunOk s i tie replies p₀ s' p) {cs : List OutboxEvent}
    (hphase : p.phase = .locking cs) (ha : s'.advance i p .lock = some (p', es, ns)) :
    PhaseOk s i tie replies p₀ p' (s'.marks ++ ns) := by
  have hok := h.phase
  simp only [PhaseOk, hphase] at hok
  obtain ⟨hm, hmarks, hpublished, hfailed, hselected, hle, done, hdue, hevents⟩ := hok
  -- the batch is full, or no rows are left
  have hfinish : cs = [] ∨ p₀.batchSize ≤ p.selected →
      PhaseOk s i tie replies p₀ { p with phase := .publishing } s'.marks := by
    intro hend
    have hall : selectedEvents s i tie p₀ = p.events := by
      unfold selectedEvents
      rw [hdue, List.filter_append, ← hevents]
      rcases hend with rfl | hfull
      · rw [List.filter_nil, List.append_nil]
        exact List.take_of_length_le (hselected ▸ hle)
      · rw [List.take_append_of_le_length (by omega)]
        exact List.take_of_length_le (hselected ▸ hle)
    refine ⟨hm, [], ?_, by simp, hmarks, ?_, hpublished, hfailed⟩
    · exact hall
    · rw [hall]
      exact hselected
  cases cs with
  | nil =>
    simp only [OutboxState.advance, hphase] at ha
    obtain ⟨rfl, rfl⟩ := moved ha
    rw [List.append_nil]
    exact hfinish (Or.inl rfl)
  | cons c cs =>
    have hc := mem_rows_of_due (s := s) (e := c) (by rw [hdue]; simp)
    have hrow : marked s'.marks c = c := by
      rw [hm]
      exact marked_row hc.1
    have hnow : isDue p.now c = true := h.now ▸ hc.2
    have hbatch := h.batchSize
    simp only [OutboxState.advance, hphase, hrow, h.locked, if_pos hnow] at ha
    have hdue' : dueEvents p₀.now tie s.rows = (done ++ [c]) ++ cs := by
      rw [hdue, List.append_assoc, List.singleton_append]
    split_ifs at ha with hfull hlocked <;> obtain ⟨rfl, rfl⟩ := moved ha <;> rw [List.append_nil]
    · exact hfinish (Or.inr (hbatch ▸ hfull))
    · refine ⟨hm, hmarks, hpublished, hfailed, hselected, hle, done ++ [c], hdue', ?_⟩
      simp [List.filter_append, hevents, hlocked]
    · refine ⟨hm, hmarks, hpublished, hfailed, ?_, ?_, done ++ [c], hdue', ?_⟩
      · simp [hselected]
      · show p.selected + 1 ≤ _
        omega
      · simp [List.filter_append, hevents, hlocked]

theorem phaseOk_xadd (h : RunOk s i tie replies p₀ s' p) {event : OutboxEvent}
    {events : List OutboxEvent} (hphase : p.phase = .publishing)
    (hevents : p.events = event :: events)
    (ha : s'.advance i p (.xadd (replies event.id)) = some (p', es, ns)) :
    PhaseOk s i tie replies p₀ p' (s'.marks ++ ns) := by
  have hok := h.phase
  simp only [PhaseOk, hphase] at hok
  obtain ⟨hm, done, htried⟩ := hok
  simp only [OutboxState.advance, hphase, hevents] at ha
  obtain ⟨rfl, rfl⟩ := moved ha
  rw [List.append_nil]
  exact ⟨hm, rfl, done, hevents ▸ htried.split, htried.countable, htried.marks, htried.selected,
    htried.published, htried.failed⟩

theorem phaseOk_update (hids : (s.app.db.outboxEvents.map (·.id)).Nodup)
    (h : RunOk s i tie replies p₀ s' p) {event : OutboxEvent} {added : Bool}
    (hphase : p.phase = .updating event added)
    (ha : s'.advance i p .update = some (p', es, ns)) :
    PhaseOk s i tie replies p₀ p' (s'.marks ++ ns) := by
  have hok := h.phase
  simp only [PhaseOk, hphase] at hok
  obtain ⟨hm, rfl, done, htried⟩ := hok
  have hmem : event ∈ selectedEvents s i tie p₀ := by
    rw [htried.split]
    simp
  obtain ⟨hrow, hdue⟩ := selectedEvents_subset hmem
  -- the event was not updated before
  have hsame : marked (s'.marks ++ p.marks) event = event := by
    have hnodup : ((selectedEvents s i tie p₀).map (·.id)).Nodup := selectedEvents_ids hids
    rw [htried.split, List.map_append, List.map_cons] at hnodup
    rw [marked_append, hm]
    · exact marked_row hrow
    · intro m hmark he
      rw [htried.marks] at hmark
      obtain ⟨e, hdone, rfl⟩ := List.mem_map.mp hmark
      exact (List.nodup_append.mp hnodup).2.2 e.id (List.mem_map_of_mem hdone) event.id
        List.mem_cons_self he
  simp only [OutboxState.advance, hphase, hsame, h.now] at ha
  rw [update_cols hdue] at ha
  cases hcount : countable (replies event.id) event with
  | true =>
    rw [hcount, if_pos rfl] at ha
    obtain ⟨rfl, rfl⟩ := moved ha
    rw [List.append_nil]
    refine ⟨hm, done ++ [event], ?_, ?_, ?_, htried.selected, ?_, ?_⟩
    · rw [htried.split, List.append_assoc, List.singleton_append]
    · intro e he
      rcases List.mem_append.mp he with he | he
      · exact htried.countable e he
      · exact List.mem_singleton.mp he ▸ hcount
    · rw [List.map_append, ← htried.marks]
      rfl
    · show p.published + _ = _
      rw [List.filter_append, List.length_append, ← htried.published, List.filter_singleton]
      split <;> simp_all
    · show p.failed + _ = _
      rw [List.filter_append, List.length_append, ← htried.failed, List.filter_singleton]
      split <;> simp_all
  | false =>
    rw [hcount] at ha
    obtain ⟨rfl, rfl⟩ := moved ha
    rw [List.append_nil]
    exact ⟨hm, event, hmem, hcount⟩

theorem phaseOk_commit (h : RunOk s i tie replies p₀ s' p) (hphase : p.phase = .publishing)
    (hevents : p.events = []) (ha : s'.advance i p .commit = some (p', es, ns)) :
    PhaseOk s i tie replies p₀ p' (s'.marks ++ ns) := by
  have hok := h.phase
  simp only [PhaseOk, hphase] at hok
  obtain ⟨hm, done, htried⟩ := hok
  simp only [OutboxState.advance, hphase, hevents] at ha
  obtain ⟨rfl, rfl⟩ := moved ha
  have hall : selectedEvents s i tie p₀ = done := by
    rw [htried.split, hevents, List.append_nil]
  have htried' := htried
  rw [← hall] at htried'
  exact ⟨htried'.countable, by rw [hm, htried'.marks], htried'.selected, htried'.published,
    htried'.failed⟩

/-- **A step of an invocation alone.** -/
theorem runOk_step (hids : (s.app.db.outboxEvents.map (·.id)).Nodup)
    (hstart : p₀.events = [] ∧ p₀.marks = [] ∧ p₀.selected = 0 ∧ p₀.published = 0 ∧ p₀.failed = 0)
    (h : RunOk s i tie replies p₀ s' p) (hb : nextStep tie replies p = some b)
    (ha : s'.advance i p b = some (p', es, ns)) :
    PhaseOk s i tie replies p₀ p' (s'.marks ++ ns) ∧ p'.batchSize = p₀.batchSize ∧
      p'.now = p₀.now := by
  have hkeep : p'.batchSize = p.batchSize ∧ p'.now = p.now := by
    cases moves_of_advance ha <;> exact ⟨rfl, rfl⟩
  refine ⟨?_, hkeep.1.trans h.batchSize, hkeep.2.trans h.now⟩
  unfold nextStep at hb
  split at hb
  · rename_i hphase
    obtain rfl := Option.some.inj hb
    exact phaseOk_select h hphase hstart ha
  · rename_i cs hphase
    obtain rfl := Option.some.inj hb
    exact phaseOk_lock h hphase ha
  · rename_i event events hphase hevents
    obtain rfl := Option.some.inj hb
    exact phaseOk_xadd h hphase hevents ha
  · rename_i hphase hevents
    obtain rfl := Option.some.inj hb
    exact phaseOk_commit h hphase hevents ha
  · rename_i event added hphase
    obtain rfl := Option.some.inj hb
    exact phaseOk_update hids h hphase ha
  · simp at hb
  · simp at hb

/-! ### The end of a run -/

/-- How many steps an invocation has left at most. -/
def remaining (s : OutboxState P) (p : Publisher) : ℕ :=
  match p.phase with
  | .started => 3 * s.rows.length + 2 * p.events.length + 4
  | .locking cs => 3 * cs.length + 2 * p.events.length + 3
  | .publishing => 2 * p.events.length + 1
  | .updating _ _ => 2 * p.events.length + 2
  | .committed | .rolledBack => 0

theorem length_dueEvents_le (now : ℕ) (tie : Uuid → ℕ) (rows : List OutboxEvent) :
    (dueEvents now tie rows).length ≤ rows.length := by
  unfold dueEvents
  rw [List.length_insertionSort]
  exact List.length_filter_le _ _

theorem advance_nextStep (s : OutboxState P) (i : ℕ) (hb : nextStep tie replies p = some b) :
    ∃ q, s.advance i p b = some q := by
  unfold nextStep at hb
  split at hb <;> cases hb
  case h_1 hphase => exact ⟨_, by simp only [OutboxState.advance, hphase]; rfl⟩
  case h_2 cs hphase =>
    cases cs with
    | nil => exact ⟨_, by simp only [OutboxState.advance, hphase]; rfl⟩
    | cons c cs =>
      simp only [OutboxState.advance, hphase]
      split_ifs <;> exact ⟨_, rfl⟩
  case h_3 event events hphase hevents =>
    exact ⟨_, by simp only [OutboxState.advance, hphase, hevents]; rfl⟩
  case h_4 hphase hevents => exact ⟨_, by simp only [OutboxState.advance, hphase, hevents]; rfl⟩
  case h_5 event added hphase =>
    simp only [OutboxState.advance, hphase]
    split <;> exact ⟨_, rfl⟩

theorem remaining_lt (s'' : OutboxState P) (hb : nextStep tie replies p = some b)
    (ha : s'.advance i p b = some (p', es, ns)) : remaining s'' p' < remaining s' p := by
  cases moves_of_advance ha with
  | select tie' hphase =>
    have hlen := length_dueEvents_le p.now tie' s'.rows
    simp only [remaining, hphase]
    omega
  | locked cs hphase =>
    simp only [remaining, hphase]
    omega
  | skip c cs ls hphase =>
    simp only [remaining, hphase, List.length_cons]
    omega
  | take c cs hphase =>
    simp only [remaining, hphase, List.length_cons, List.length_append, List.length_nil]
    omega
  | xadd event events reply hphase hevents =>
    simp only [remaining, hphase, hevents, List.length_cons]
    omega
  | update event added cols hphase =>
    simp only [remaining, hphase]
    omega
  | refused event added hphase =>
    simp only [remaining, hphase, Publisher.finish]
    omega
  | commit hphase =>
    simp only [remaining, hphase, Publisher.finish]
    omega
  | rollback =>
    unfold nextStep at hb
    split at hb <;> simp at hb

theorem step_publisher (hp : s'.publishers[i]? = some p)
    (ha : s'.advance i p b = some (p', es, ns)) :
    ∃ s'', s'.step (.publisher i b) = some s'' ∧ s''.app = s'.app ∧ s''.marks = s'.marks ++ ns ∧
      s''.publishers = s'.publishers.set i p' ∧ s''.publishers[i]? = some p' := by
  have hi : i < s'.publishers.length := (List.getElem?_eq_some_iff.mp hp).1
  refine ⟨{ s' with
    marks := s'.marks ++ ns
    stream := s'.stream ++ es
    publishers := s'.publishers.set i p' }, ?_, rfl, rfl, rfl, by simp [hi]⟩
  simp only [OutboxState.step, hp, ha]

end step

variable (tie replies) in
theorem ends {n : ℕ} : ∀ {s' : OutboxState P} {p : Publisher}, s'.publishers[i]? = some p →
    remaining s' p ≤ n → ∃ s'', Reaches OutboxState.step (Follows i tie replies) s' s'' ∧
      Ended s'' i := by
  induction n with
  | zero =>
    intro s' p hp hn
    refine ⟨s', .refl, p, hp, ?_⟩
    cases hphase : p.phase <;> simp_all [remaining]
  | succ n ih =>
    intro s' p hp hn
    cases hb : nextStep tie replies p with
    | none =>
      refine ⟨s', .refl, p, hp, ?_⟩
      cases hphase : p.phase <;> cases hevents : p.events <;> simp_all [nextStep]
    | some b =>
      obtain ⟨⟨p', es, ns⟩, ha⟩ := advance_nextStep s' i hb
      obtain ⟨s₁, hs, -, -, -, hp'⟩ := step_publisher hp ha
      have hlt := remaining_lt s₁ hb ha
      obtain ⟨s'', hrun, hend⟩ := ih hp' (by omega)
      exact ⟨s'', (Reaches.step .refl ⟨p, b, hp, hb, rfl⟩ hs).trans hrun, hend⟩

/-- **A run of an invocation alone.** -/
theorem runOk_of_reaches (hids : (s.app.db.outboxEvents.map (·.id)).Nodup) {now n : ℕ}
    (hp : s.publishers[i]? = some (publishPendingOutboxEvents now n))
    (h : Reaches OutboxState.step (Follows i tie replies) s s') :
    ∃ p, s'.publishers[i]? = some p ∧
      RunOk s i tie replies (publishPendingOutboxEvents now n) s' p := by
  refine h.invariant (I := fun s₁ => ∃ p, s₁.publishers[i]? = some p ∧
    RunOk s i tie replies (publishPendingOutboxEvents now n) s₁ p)
    ⟨_, hp, rfl, rfl, rfl, rfl, rfl, rfl⟩ ?_
  rintro s₁ a s₂ ⟨p, hp₁, hok⟩ ⟨q, b, hq, hb, rfl⟩ hs
  obtain rfl := Option.some.inj (hp₁.symm.trans hq)
  obtain ⟨⟨p', es, ns⟩, ha⟩ := advance_nextStep s₁ i hb
  obtain ⟨s₃, hs₃, happ, hmarks, hpubs, hp'⟩ := step_publisher hp₁ ha
  obtain rfl := Option.some.inj (hs₃.symm.trans hs)
  obtain ⟨hphase, hbatch, hnow⟩ := runOk_step hids ⟨rfl, rfl, rfl, rfl, rfl⟩ hok hb ha
  refine ⟨p', hp', happ.trans hok.app, ?_, hbatch, hnow, hmarks ▸ hphase⟩
  rw [hpubs, List.eraseIdx_set_eq]
  exact hok.others

theorem marked_selected (hids : (s.app.db.outboxEvents.map (·.id)).Nodup) {e : OutboxEvent}
    (he : e ∈ selectedEvents s i tie p) :
    marked (s.marks ++
      (selectedEvents s i tie p).map fun e => markAfter p.now (replies e.id) e) e =
      afterXadd p.now (replies e.id) e := by
  obtain ⟨m, hm⟩ : ∃ m, lastMark
      ((selectedEvents s i tie p).map fun e => markAfter p.now (replies e.id) e) e.id = some m := by
    refine Option.isSome_iff_exists.mp (List.find?_isSome.mpr ?_)
    exact ⟨markAfter p.now (replies e.id) e, List.mem_reverse.mpr
      (List.mem_map.mpr ⟨e, he, rfl⟩), by simp [markAfter]⟩
  obtain ⟨hmem, hid⟩ := lastMark_some hm
  obtain ⟨e', he', rfl⟩ := List.mem_map.mp hmem
  obtain rfl := eq_of_key (selectedEvents_ids hids) he' he hid
  unfold marked
  rw [lastMark_append, hm, Option.some_or]
  exact set_markAfter p.now (replies e'.id) e'

theorem rows_of_marks (hids : (s.app.db.outboxEvents.map (·.id)).Nodup) (happ : s'.app = s.app)
    (hmarks : s'.marks = s.marks ++
      ((selectedEvents s i tie p).map fun e => markAfter p.now (replies e.id) e)) :
    s'.rows = s.rows.map fun row =>
      if row.id ∈ (selectedEvents s i tie p).map (·.id) then afterXadd p.now (replies row.id) row
      else row := by
  have hrow : ∀ row ∈ s.rows, marked s'.marks row =
      if row.id ∈ (selectedEvents s i tie p).map (·.id) then afterXadd p.now (replies row.id) row
      else row := by
    intro row hrow
    rw [hmarks]
    split_ifs with hmem
    · obtain ⟨e, he, hid⟩ := List.mem_map.mp hmem
      obtain rfl := eq_of_key (rows_ids hids) (selectedEvents_subset he).1 hrow hid
      exact marked_selected hids he
    · rw [marked_append, marked_row hrow]
      intro m hm he
      obtain ⟨e, hsel, rfl⟩ := List.mem_map.mp hm
      exact hmem (List.mem_map.mpr ⟨e, hsel, he⟩)
  have hall : s'.rows = s.rows.map (marked s'.marks) := by
    unfold OutboxState.rows
    rw [List.map_map, happ]
    refine List.map_congr_left fun row _ => ?_
    exact (marked_marked (hmarks ▸ List.prefix_append _ _) row).symm
  rw [hall]
  exact List.map_congr_left hrow

theorem ended_cases (hids : (s.app.db.outboxEvents.map (·.id)).Nodup) {now n : ℕ}
    (hp : s.publishers[i]? = some (publishPendingOutboxEvents now n))
    (hrun : Reaches OutboxState.step (Follows i tie replies) s s') (hend : Ended s' i) :
    ((∀ e ∈ selectedEvents s i tie (publishPendingOutboxEvents now n),
        countable (replies e.id) e = true) ∧
      Committed s s' i tie replies (publishPendingOutboxEvents now n)) ∨
    ((∃ e ∈ selectedEvents s i tie (publishPendingOutboxEvents now n),
        countable (replies e.id) e = false) ∧
      ¬ Committed s s' i tie replies (publishPendingOutboxEvents now n) ∧ s'.rows = s.rows) := by
  obtain ⟨p, hp', hend⟩ := hend
  obtain ⟨q, hq, hok⟩ := runOk_of_reaches hids hp hrun
  obtain rfl := Option.some.inj (hp'.symm.trans hq)
  have hphase := hok.phase
  rcases hend with hend | hend <;> simp only [PhaseOk, hend] at hphase
  · obtain ⟨hall, hmarks, hselected, hpublished, hfailed⟩ := hphase
    refine Or.inl ⟨hall, hok.app, rows_of_marks hids hok.app hmarks, p, p.published, p.failed, hp',
      ?_, hpublished, ?_⟩
    · simp only [Publisher.result, hend, hselected]
    · rw [hpublished, hfailed]
      exact (List.length_eq_length_filter_add _).symm
  · obtain ⟨hmarks, hcount⟩ := hphase
    refine Or.inr ⟨hcount, fun h => ?_, hok.sameRows hmarks⟩
    obtain ⟨p', published, failed, hp'', hresult, -⟩ := h.result
    obtain rfl := Option.some.inj (hp''.symm.trans hp')
    simp [Publisher.result, hend] at hresult

variable (tie replies) in
/-- **One event that fails does not harm the others.** An invocation alone always ends, and
its batch is committed as the replies say if and only if the update of every selected event
can count its attempts. -/
theorem batch_committed_iff (hids : (s.app.db.outboxEvents.map (·.id)).Nodup) {now n : ℕ}
    (hp : s.publishers[i]? = some (publishPendingOutboxEvents now n)) :
    (∃ s', Reaches OutboxState.step (Follows i tie replies) s s' ∧ Ended s' i) ∧
    ∀ s', Reaches OutboxState.step (Follows i tie replies) s s' → Ended s' i →
      (Committed s s' i tie replies (publishPendingOutboxEvents now n) ↔
        ∀ e ∈ selectedEvents s i tie (publishPendingOutboxEvents now n),
          countable (replies e.id) e = true) := by
  refine ⟨ends tie replies hp (Nat.le_refl _), fun s' hrun hend => ?_⟩
  rcases ended_cases hids hp hrun hend with ⟨hall, hcommitted⟩ | ⟨⟨e, he, hcount⟩, hnot, -⟩
  · exact ⟨fun _ => hall, fun _ => hcommitted⟩
  · exact ⟨fun h => absurd h hnot, fun h => by simp [h e he] at hcount⟩

/-! ### Examples -/

/-- An event that was tried `attempts` times before. -/
def exampleEvent (n attempts : ℕ) : OutboxEvent :=
  ⟨exampleUuid n, exampleUuid 9, .paymentCreated, .null, .pending, attempts, 0, n, none⟩

/-- An invocation begins, and the table has two events, the first tried before. -/
def twoEvents (attempts : ℕ) : OutboxState examplePlatform where
  app := { init examplePlatform with
    db := { Db.empty with outboxEvents := [exampleEvent 1 attempts, exampleEvent 2 0] } }
  marks := []
  stream := []
  publishers := [publishPendingOutboxEvents 10 100]

/-- The first event cannot be added to the stream. -/
def firstReplyFails (id : Uuid) : XaddReply :=
  if id = exampleUuid 1 then .redisError false else .returned

/-- The first event fails for the seventh time, and the second is published. -/
theorem batch_committed_seventh : ∃ s' : OutboxState examplePlatform,
    s'.rows.map (fun row => (row.status, row.attempts, row.availableAt, row.publishedAt)) =
      [(.pending, 7, 10 + 128 * second, none), (.published, 1, 0, some 10)] := by
  have hids : ((twoEvents 6).app.db.outboxEvents.map (·.id)).Nodup := by decide +kernel
  obtain ⟨⟨s', hrun, hend⟩, hiff⟩ :=
    batch_committed_iff (i := 0) (fun _ => 0) firstReplyFails hids rfl
  have hall : (selectedEvents (twoEvents 6) 0 (fun _ => 0) (publishPendingOutboxEvents 10 100)).all
      (fun e => countable (firstReplyFails e.id) e) = true := by decide +kernel
  have hcommitted := (hiff s' hrun hend).mpr (by simpa using hall)
  refine ⟨s', ?_⟩
  rw [hcommitted.rows]
  decide +kernel

/-- **An event that has failed too often undoes the batch.** The update of the first event raises,
and the second event, whose `XADD` would return, stays pending. -/
theorem batch_not_committed : ∃ s' : OutboxState examplePlatform,
    Reaches OutboxState.step (Follows 0 (fun _ => 0) firstReplyFails) (twoEvents 1023) s' ∧
      Ended s' 0 ∧ s'.rows = (twoEvents 1023).rows ∧
      ¬ Committed (twoEvents 1023) s' 0 (fun _ => 0) firstReplyFails
        (publishPendingOutboxEvents 10 100) := by
  have hids : ((twoEvents 1023).app.db.outboxEvents.map (·.id)).Nodup := by decide +kernel
  have hp : (twoEvents 1023).publishers[0]? = some (publishPendingOutboxEvents 10 100) := rfl
  obtain ⟨s', hrun, hend⟩ := ends (fun _ => 0) firstReplyFails hp (Nat.le_refl _)
  have hany : (selectedEvents (twoEvents 1023) 0 (fun _ => 0)
      (publishPendingOutboxEvents 10 100)).any
      (fun e => !countable (firstReplyFails e.id) e) = true := by decide +kernel
  rcases ended_cases hids hp hrun hend with ⟨hall, -⟩ | ⟨-, hnot, hrows⟩
  · obtain ⟨e, he, hcount⟩ := List.any_eq_true.mp hany
    simp [hall e he] at hcount
  · exact ⟨s', hrun, hend, hrows, hnot⟩

end Payflow.Safety
