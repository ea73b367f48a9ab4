import Payflow.Model.Publisher
import Payflow.Spec.OutboxInserts

/-! # What the invocations of the publisher keep

An invocation holds the events it works on (`held`): it has locked them, no other invocation
holds them, and their committed rows are pending until it commits. `OutboxOk` is the invariant
of the whole. -/

namespace Payflow.Spec

open Payflow.Lib Payflow.Model

/-! ### Rows and updates -/

section marks

variable {ms ns : List Mark} {row : OutboxEvent} {id : Uuid}

theorem lastMark_append (ms ns : List Mark) (id : Uuid) :
    lastMark (ms ++ ns) id = (lastMark ns id).or (lastMark ms id) := by
  simp [lastMark, List.find?_append]

theorem lastMark_none (h : ∀ m ∈ ms, m.event ≠ id) : lastMark ms id = none := by
  simpa [lastMark] using h

theorem lastMark_some {m : Mark} (h : lastMark ms id = some m) : m ∈ ms ∧ m.event = id := by
  refine ⟨?_, by simpa using List.find?_some h⟩
  simpa using List.mem_of_find?_eq_some h

@[simp] theorem marked_id (ms : List Mark) (row : OutboxEvent) : (marked ms row).id = row.id := by
  unfold marked
  split <;> rfl

@[simp] theorem marked_aggregateId (ms : List Mark) (row : OutboxEvent) :
    (marked ms row).aggregateId = row.aggregateId := by
  unfold marked
  split <;> rfl

@[simp] theorem streamEntry_marked (ms : List Mark) (row : OutboxEvent) :
    streamEntry (marked ms row) = streamEntry row := by
  unfold marked
  split <;> rfl

theorem marked_append (h : ∀ m ∈ ns, m.event ≠ row.id) : marked (ms ++ ns) row = marked ms row := by
  unfold marked
  rw [lastMark_append, lastMark_none h, Option.none_or]

theorem marked_marked (hms : ms <+: ns) (row : OutboxEvent) :
    marked ns (marked ms row) = marked ns row := by
  obtain ⟨new, rfl⟩ := hms
  have hset : ∀ cols cols', (row.set cols).set cols' = row.set cols' := fun _ _ => rfl
  unfold marked
  cases hm : lastMark ms row.id with
  | none => rfl
  | some m =>
    have hsome : ∃ m', lastMark (ms ++ new) row.id = some m' := by
      rw [lastMark_append, hm]
      cases lastMark new row.id <;> simp
    obtain ⟨m', hm'⟩ := hsome
    have hid : (row.set m.cols).id = row.id := rfl
    simp only [hid, hm', hset]

end marks

/-! ### One invocation -/

/-- The events that an invocation works on: those it has updated, the one it has tried to add to the
stream, and those it will. -/
def held (p : Publisher) : List Uuid :=
  p.marks.map (·.event) ++ (match p.phase with | .updating e _ => [e.id] | _ => []) ++
    p.events.map (·.id)

/-- The rows of the snapshot that are left. -/
def candidates (p : Publisher) : List OutboxEvent :=
  match p.phase with
  | .locking cs => cs
  | _ => []

section invocation

variable {B B' : List OutboxEvent} {ms ns : List Mark} {st st' : List StreamEntry}
    {p p' : Publisher}

/-- An update is a backoff, or it marks an event that is in the stream. -/
def MarkOk (B : List OutboxEvent) (st : List StreamEntry) (m : Mark) : Prop :=
  ∃ row ∈ B, row.id = m.event ∧
    ((m.cols.status = .pending ∧ m.cols.publishedAt = none ∧
      m.cols.availableAt ≤ m.startedAt + 300 * second) ∨
    (m.cols.status = .published ∧ m.cols.publishedAt.isSome = true ∧ streamEntry row ∈ st))

/-- What an invocation keeps, over the rows `B`, the committed updates `ms` and the stream `st`. -/
structure PublisherOk (B : List OutboxEvent) (ms : List Mark) (st : List StreamEntry)
    (p : Publisher) : Prop where
  started : p.phase = .started → held p = [] ∧ p.locks = []
  locked : ∀ id ∈ held p, id ∈ p.locks
  nodup : (held p ++ (candidates p).map (·.id)).Nodup
  due : ∀ id ∈ held p, ∃ row ∈ B, row.id = id ∧ (marked ms row).status = .pending ∧
    (marked ms row).publishedAt = none
  events : ∀ e ∈ p.events, ∃ row ∈ B, e = marked ms row
  updating : ∀ e added, p.phase = .updating e added → (∃ row ∈ B, e = marked ms row) ∧
    (added = true → streamEntry e ∈ st)
  snapshot : ∀ c ∈ candidates p, ∃ row ∈ B, ∃ old, old <+: ms ∧ c = marked old row
  marks : ∀ m ∈ p.marks, MarkOk B st m
  committed : p.phase = .committed → p.marks = [] ∧ p.events = []

theorem MarkOk.mono {m : Mark} (h : MarkOk B st m) (hB : B ⊆ B') (hst : st ⊆ st') :
    MarkOk B' st' m := by
  obtain ⟨row, hrow, hid, hcols⟩ := h
  refine ⟨row, hB hrow, hid, ?_⟩
  rcases hcols with hpending | ⟨hs, hp, hentry⟩
  · exact Or.inl hpending
  · exact Or.inr ⟨hs, hp, hst hentry⟩

/-- The others do not disturb an invocation: they update no event that it has locked. -/
theorem PublisherOk.mono (h : PublisherOk B ms st p) (hB : B ⊆ B') (hst : st ⊆ st')
    (hns : ∀ m ∈ ns, m.event ∉ p.locks) : PublisherOk B' (ms ++ ns) st' p := by
  have hsame : ∀ row : OutboxEvent, row.id ∈ held p → marked (ms ++ ns) row = marked ms row :=
    fun row hid => marked_append fun m hm he => hns m hm (he ▸ h.locked _ hid)
  have hheld : ∀ e ∈ p.events, e.id ∈ held p := fun e he =>
    List.mem_append_right _ (List.mem_map_of_mem he)
  refine ⟨h.started, h.locked, h.nodup, ?_, ?_, ?_, ?_, fun m hm => (h.marks m hm).mono hB hst,
    h.committed⟩
  · intro id hid
    obtain ⟨row, hrow, rfl, hdue⟩ := h.due id hid
    exact ⟨row, hB hrow, rfl, by rwa [hsame row hid]⟩
  · intro e he
    obtain ⟨row, hrow, rfl⟩ := h.events e he
    exact ⟨row, hB hrow, (hsame row (by simpa using hheld _ he)).symm⟩
  · intro e added hphase
    obtain ⟨⟨row, hrow, rfl⟩, hentry⟩ := h.updating e added hphase
    have hid : row.id ∈ held p := by
      simp [held, hphase]
    exact ⟨⟨row, hB hrow, (hsame row hid).symm⟩, fun ha => hst (hentry ha)⟩
  · intro c hc
    obtain ⟨row, hrow, old, hold, rfl⟩ := h.snapshot c hc
    exact ⟨row, hB hrow, old, hold.trans (List.prefix_append _ _), rfl⟩

theorem PublisherOk.grow (h : PublisherOk B ms st p) (hB : B ⊆ B') (hst : st ⊆ st') :
    PublisherOk B' ms st' p := by
  have hmono : PublisherOk B' (ms ++ []) st' p := h.mono hB hst (by simp)
  rwa [List.append_nil] at hmono

theorem PublisherOk.finish (p : Publisher) {phase : PublisherPhase}
    (hphase : phase = .committed ∨ phase = .rolledBack) : PublisherOk B ms st (p.finish phase) := by
  have hheld : held (p.finish phase) = [] := by
    rcases hphase with rfl | rfl <;> rfl
  have hcand : candidates (p.finish phase) = [] := by
    rcases hphase with rfl | rfl <;> rfl
  refine ⟨fun _ => ⟨hheld, rfl⟩, ?_, ?_, ?_, ?_, ?_, ?_, ?_, fun _ => ⟨rfl, rfl⟩⟩
  · simp [hheld]
  · simp [hheld, hcand]
  · simp [hheld]
  · simp [Publisher.finish]
  · rcases hphase with rfl | rfl <;> simp [Publisher.finish]
  · simp [hcand]
  · simp [Publisher.finish]

end invocation

/-! ### The steps of an invocation -/

section steps

variable {P : Platform} {s : OutboxState P} {i : ℕ} {p p' : Publisher} {es : List StreamEntry}
  {ns : List Mark}

theorem held_of_phase {phase : PublisherPhase} (h : ∀ e added, p.phase ≠ .updating e added)
    (h' : ∀ e added, phase ≠ .updating e added) : held { p with phase := phase } = held p := by
  unfold held
  cases hp : p.phase <;> cases phase <;> simp_all

theorem PublisherOk.phase {B : List OutboxEvent} {ms : List Mark} {st : List StreamEntry}
    (h : PublisherOk B ms st p) {phase : PublisherPhase} {ls : List Uuid}
    (hp : ∀ e added, p.phase ≠ .updating e added) (hnew : ∀ e added, phase ≠ .updating e added)
    (hopen : phase ≠ .started ∧ phase ≠ .committed) (hls : ∀ id ∈ p.locks, id ∈ ls)
    (hcand : (held p ++ (candidates { p with phase := phase }).map (·.id)).Nodup)
    (hrows : ∀ c ∈ candidates { p with phase := phase }, ∃ row ∈ B, ∃ old, old <+: ms ∧
      c = marked old row) : PublisherOk B ms st { p with phase := phase, locks := ls } := by
  have hheld : held { p with phase := phase, locks := ls } = held p := held_of_phase hp hnew
  refine ⟨fun he => absurd he hopen.1, fun id hid => hls _ (h.locked id (hheld ▸ hid)), ?_, ?_,
    h.events, fun e added he => absurd he (hnew e added), hrows, h.marks,
    fun he => absurd he hopen.2⟩
  · rw [hheld]
    exact hcand
  · rw [hheld]
    exact h.due

/-- An invocation that takes the next row of its snapshot into its batch. -/
theorem PublisherOk.take {B : List OutboxEvent} {ms : List Mark} {st : List StreamEntry}
    (h : PublisherOk B ms st p) {c row : OutboxEvent} {cs : List OutboxEvent} {n : ℕ}
    (hphase : p.phase = .locking (c :: cs)) (hc : marked ms c = marked ms row) (hrow : row ∈ B)
    (hdue : isDue p.now (marked ms c) = true) (hnodup : (held p ++ c.id :: cs.map (·.id)).Nodup)
    (hsnap : ∀ c ∈ cs, ∃ row ∈ B, ∃ old, old <+: ms ∧ c = marked old row) :
    PublisherOk B ms st { p with
      phase := .locking cs
      locks := p.locks ++ [c.id]
      events := p.events ++ [marked ms c]
      selected := n } := by
  have hheld : held { p with
      phase := .locking cs
      locks := p.locks ++ [c.id]
      events := p.events ++ [marked ms c]
      selected := n } = held p ++ [c.id] := by
    simp [held, hphase]
  have hid : row.id = c.id := by
    have := congrArg (·.id) hc
    simpa using this.symm
  simp only [isDue, Bool.and_eq_true, decide_eq_true_eq, Option.isNone_iff_eq_none] at hdue
  refine ⟨by simp, ?_, ?_, ?_, ?_, by simp, hsnap, h.marks, by simp⟩
  · rw [hheld]
    intro id hid
    rcases List.mem_append.mp hid with hid | hid
    · exact List.mem_append_left _ (h.locked id hid)
    · exact List.mem_append_right _ hid
  · rw [hheld, List.append_assoc]
    exact hnodup
  · rw [hheld]
    intro id' hid'
    rcases List.mem_append.mp hid' with hid' | hid'
    · exact h.due id' hid'
    · obtain rfl := List.mem_singleton.mp hid'
      exact ⟨row, hrow, hid, hc ▸ hdue.1⟩
  · intro e he
    rcases List.mem_append.mp he with he | he
    · exact h.events e he
    · obtain rfl := List.mem_singleton.mp he
      exact ⟨row, hrow, hc⟩

theorem PublisherOk.mark {B : List OutboxEvent} {ms : List Mark} {st : List StreamEntry}
    (h : PublisherOk B ms st p) {event : OutboxEvent} {added : Bool} {cols : OutboxCols} {n k : ℕ}
    (hphase : p.phase = .updating event added) (hm : MarkOk B st ⟨event.id, p.now, cols⟩) :
    PublisherOk B ms st { p with
      phase := .publishing
      marks := p.marks ++ [⟨event.id, p.now, cols⟩]
      published := n
      failed := k } := by
  have hheld : held { p with
      phase := .publishing
      marks := p.marks ++ [⟨event.id, p.now, cols⟩]
      published := n
      failed := k } = held p := by
    simp [held, hphase]
  refine ⟨by simp, ?_, ?_, ?_, h.events, by simp, by simp [candidates], fun m hm' => ?_, by simp⟩
  · rw [hheld]
    exact h.locked
  · rw [hheld]
    simpa [candidates] using h.nodup.sublist (List.sublist_append_left _ _)
  · rw [hheld]
    exact h.due
  · rcases List.mem_append.mp hm' with hm' | hm'
    · exact h.marks m hm'
    · obtain rfl := List.mem_singleton.mp hm'
      exact hm

/-- What a step of an invocation does. -/
inductive Moves (s : OutboxState P) (i : ℕ) (p : Publisher) :
    PublisherAction → Publisher → List StreamEntry → List Mark → Prop
  | select (tie : Uuid → ℕ) : p.phase = .started →
      Moves s i p (.select tie) { p with phase := .locking (dueEvents p.now tie s.rows) } [] []
  | locked (cs : List OutboxEvent) : p.phase = .locking cs → cs = [] ∨ p.batchSize ≤ p.selected →
      Moves s i p .lock { p with phase := .publishing } [] []
  | skip (c : OutboxEvent) (cs : List OutboxEvent) (ls : List Uuid) : p.phase = .locking (c :: cs) →
      p.selected < p.batchSize → s.locked i c.id = true ∧ ls = p.locks ∨
        s.locked i c.id = false ∧ isDue p.now (marked s.marks c) = false ∧ ls = p.locks ++ [c.id] →
      Moves s i p .lock { p with phase := .locking cs, locks := ls } [] []
  | take (c : OutboxEvent) (cs : List OutboxEvent) : p.phase = .locking (c :: cs) →
      p.selected < p.batchSize → s.locked i c.id = false → isDue p.now (marked s.marks c) = true →
      Moves s i p .lock { p with
        phase := .locking cs
        locks := p.locks ++ [c.id]
        events := p.events ++ [marked s.marks c]
        selected := p.selected + 1 } [] []
  | xadd (event : OutboxEvent) (events : List OutboxEvent) (reply : XaddReply) :
      p.phase = .publishing → p.events = event :: events →
      Moves s i p (.xadd reply)
        { p with phase := .updating event (reply = .returned), events := events }
        (if reply.appended then [streamEntry event] else []) []
  | update (event : OutboxEvent) (added : Bool) (cols : OutboxCols) : p.phase = .updating event added →
      (let row := marked (s.marks ++ p.marks) event
       if added then publishedCols p.now row else backoffCols p.now row) = some cols →
      Moves s i p .update { p with
        phase := .publishing
        marks := p.marks ++ [⟨event.id, p.now, cols⟩]
        published := p.published + if added then 1 else 0
        failed := p.failed + if added then 0 else 1 } [] []
  | refused (event : OutboxEvent) (added : Bool) : p.phase = .updating event added →
      Moves s i p .update (p.finish .rolledBack) [] []
  | commit : p.phase = .publishing → p.events = [] →
      Moves s i p .commit (p.finish .committed) [] p.marks
  | rollback : Moves s i p .rollback (p.finish .rolledBack) [] []

/-- **The steps of an invocation.** -/
theorem moves_of_advance {a : PublisherAction} (ha : s.advance i p a = some (p', es, ns)) :
    Moves s i p a p' es ns := by
  have split : ∀ {q : Publisher} {es' : List StreamEntry} {ns' : List Mark},
      some (q, es', ns') = some (p', es, ns) → q = p' ∧ es' = es ∧ ns' = ns := by
    intro q es' ns' h
    obtain ⟨rfl, hrest⟩ := Prod.mk.inj (Option.some.inj h)
    exact ⟨rfl, Prod.mk.inj hrest⟩
  cases a with
  | select tie =>
    simp only [OutboxState.advance] at ha
    split at ha
    · rename_i hphase
      obtain ⟨rfl, rfl, rfl⟩ := split ha
      exact .select tie hphase
    · simp at ha
  | lock =>
    simp only [OutboxState.advance] at ha
    split at ha
    · rename_i hphase
      obtain ⟨rfl, rfl, rfl⟩ := split ha
      exact .locked [] hphase (Or.inl rfl)
    · rename_i c cs hphase
      split_ifs at ha with hfull hlocked hdue <;> obtain ⟨rfl, rfl, rfl⟩ := split ha
      · exact .locked _ hphase (Or.inr hfull)
      · exact .skip c cs p.locks hphase (by omega) (Or.inl ⟨hlocked, rfl⟩)
      · exact .take c cs hphase (by omega) (by simpa using hlocked) hdue
      · exact .skip c cs _ hphase (by omega) (Or.inr ⟨by simpa using hlocked, by
          simpa using hdue, rfl⟩)
    · simp at ha
  | xadd reply =>
    simp only [OutboxState.advance] at ha
    split at ha
    · rename_i event events hphase hevents
      obtain ⟨rfl, rfl, rfl⟩ := split ha
      exact .xadd event events reply hphase hevents
    · simp at ha
  | update =>
    simp only [OutboxState.advance] at ha
    split at ha
    · rename_i event added hphase
      split at ha
      · rename_i cols hcols
        obtain ⟨rfl, rfl, rfl⟩ := split ha
        exact .update event added cols hphase hcols
      · obtain ⟨rfl, rfl, rfl⟩ := split ha
        exact .refused event added hphase
    · simp at ha
  | commit =>
    simp only [OutboxState.advance] at ha
    split at ha
    · rename_i hphase hevents
      obtain ⟨rfl, rfl, rfl⟩ := split ha
      exact .commit hphase hevents
    · simp at ha
  | rollback =>
    simp only [OutboxState.advance] at ha
    split at ha
    · simp at ha
    · simp at ha
    · obtain ⟨rfl, rfl, rfl⟩ := split ha
      exact .rollback

theorem candidates_of_phase {cs : List OutboxEvent} (h : p.phase = .locking cs) :
    candidates p = cs := by
  unfold candidates
  rw [h]

theorem publisherOk_select (tie : Uuid → ℕ) (hids : (s.app.db.outboxEvents.map (·.id)).Nodup)
    (h : PublisherOk s.app.db.outboxEvents s.marks s.stream p) (hphase : p.phase = .started) :
    PublisherOk s.app.db.outboxEvents s.marks s.stream
      { p with phase := .locking (dueEvents p.now tie s.rows) } := by
  have hmem : ∀ c ∈ dueEvents p.now tie s.rows, ∃ row ∈ s.app.db.outboxEvents,
      c = marked s.marks row := by
    intro c hc
    have hc : c ∈ s.rows := by
      have hperm := (List.perm_insertionSort _ _).mem_iff.mp hc
      exact (List.mem_filter.mp hperm).1
    obtain ⟨row, hrow, rfl⟩ := List.mem_map.mp hc
    exact ⟨row, hrow, rfl⟩
  refine h.phase (by simp [hphase]) (by simp) (by simp) (fun _ hid => hid) ?_ ?_
  · rw [(h.started hphase).1, List.nil_append]
    have hrows : (s.rows.map (·.id)).Nodup := by
      have hsame : s.rows.map (·.id) = s.app.db.outboxEvents.map (·.id) := by
        simp [OutboxState.rows, Function.comp_def]
      rwa [hsame]
    have hperm := (List.perm_insertionSort (fun a b : OutboxEvent => a.createdAt < b.createdAt ∨
      a.createdAt = b.createdAt ∧ tie a.id ≤ tie b.id) (s.rows.filter (isDue p.now))).map (·.id)
    exact hperm.nodup_iff.mpr (hrows.sublist (List.filter_sublist.map _))
  · intro c hc
    obtain ⟨row, hrow, hc⟩ := hmem c hc
    exact ⟨row, hrow, s.marks, List.prefix_refl _, hc⟩

/-- The end of the select: the batch is full, or no rows are left. -/
theorem publisherOk_locked (h : PublisherOk s.app.db.outboxEvents s.marks s.stream p)
    {cs : List OutboxEvent} (hphase : p.phase = .locking cs) :
    PublisherOk s.app.db.outboxEvents s.marks s.stream { p with phase := .publishing } := by
  refine h.phase (by simp [hphase]) (by simp) (by simp) (fun _ hid => hid) ?_ ?_
  · simpa [candidates] using h.nodup.sublist (List.sublist_append_left _ _)
  · simp [candidates]

theorem publisherOk_skip (h : PublisherOk s.app.db.outboxEvents s.marks s.stream p)
    {c : OutboxEvent} {cs : List OutboxEvent} {ls : List Uuid}
    (hphase : p.phase = .locking (c :: cs))
    (hls : ls = p.locks ∨ ls = p.locks ++ [c.id]) :
    PublisherOk s.app.db.outboxEvents s.marks s.stream
      { p with phase := .locking cs, locks := ls } := by
  have hnodup := h.nodup
  have hsnap := h.snapshot
  rw [candidates_of_phase hphase] at hnodup hsnap
  refine h.phase (by simp [hphase]) (by simp) (by simp) ?_ ?_
    fun c' hc' => hsnap c' (List.mem_cons_of_mem _ hc')
  · rcases hls with rfl | rfl
    · exact fun _ hid => hid
    · exact fun _ hid => List.mem_append_left _ hid
  · exact hnodup.sublist (List.Sublist.append_left (List.sublist_cons_self _ _) _)

theorem publisherOk_take (h : PublisherOk s.app.db.outboxEvents s.marks s.stream p)
    {c : OutboxEvent} {cs : List OutboxEvent} {n : ℕ} (hphase : p.phase = .locking (c :: cs))
    (hdue : isDue p.now (marked s.marks c) = true) :
    PublisherOk s.app.db.outboxEvents s.marks s.stream { p with
      phase := .locking cs
      locks := p.locks ++ [c.id]
      events := p.events ++ [marked s.marks c]
      selected := n } := by
  have hnodup := h.nodup
  have hsnap := h.snapshot
  rw [candidates_of_phase hphase] at hnodup hsnap
  obtain ⟨row, hrow, old, hold, hrowc⟩ := hsnap c List.mem_cons_self
  exact h.take hphase (hrowc ▸ marked_marked hold row) hrow hdue hnodup
    fun c' hc' => hsnap c' (List.mem_cons_of_mem _ hc')

theorem publisherOk_xadd (h : PublisherOk s.app.db.outboxEvents s.marks s.stream p)
    {event : OutboxEvent} {events : List OutboxEvent} (reply : XaddReply)
    (hphase : p.phase = .publishing) (hevents : p.events = event :: events) :
    PublisherOk s.app.db.outboxEvents s.marks
      (s.stream ++ if reply.appended then [streamEntry event] else [])
      { p with phase := .updating event (reply = .returned), events := events } := by
  have hheld : held { p with phase := .updating event (reply = .returned), events := events } =
      held p := by
    simp [held, hphase, hevents]
  obtain ⟨row, hrow, hevent⟩ := h.events event (hevents ▸ List.mem_cons_self)
  have hgrow := h.grow (List.Subset.refl _) (List.subset_append_left s.stream
    (if reply.appended then [streamEntry event] else []))
  refine ⟨by simp, ?_, ?_, ?_, ?_, ?_, by simp [candidates], hgrow.marks, by simp⟩
  · rw [hheld]
    exact h.locked
  · rw [hheld]
    simpa [candidates] using h.nodup.sublist (List.sublist_append_left _ _)
  · rw [hheld]
    exact h.due
  · exact fun e he => h.events e (hevents ▸ List.mem_cons_of_mem _ he)
  · intro e added he
    obtain ⟨rfl, rfl⟩ := PublisherPhase.updating.inj he
    refine ⟨⟨row, hrow, hevent⟩, fun hadded => ?_⟩
    have hreply : reply = .returned := by simpa using hadded
    simp [hreply, XaddReply.appended]

theorem markOk_of_cols {B : List OutboxEvent} {st : List StreamEntry} {row event : OutboxEvent}
    {now : ℕ} {added : Bool} {cols : OutboxCols} (hrow : row ∈ B) (hid : row.id = event.id)
    (hstatus : event.status = .pending) (hpub : event.publishedAt = none)
    (hentry : added = true → streamEntry row ∈ st)
    (hcols : (if added then publishedCols now event else backoffCols now event) = some cols) :
    MarkOk B st ⟨event.id, now, cols⟩ := by
  refine ⟨row, hrow, hid, ?_⟩
  cases added with
  | true =>
    simp only [if_true, publishedCols] at hcols
    split_ifs at hcols
    obtain rfl := Option.some.inj hcols
    exact Or.inr ⟨rfl, rfl, hentry rfl⟩
  | false =>
    simp only [Bool.false_eq_true, if_false, backoffCols] at hcols
    split_ifs at hcols
    obtain rfl := Option.some.inj hcols
    refine Or.inl ⟨hstatus, hpub, ?_⟩
    show now + min (2 ^ (event.attempts + 1)) 300 * second ≤ now + 300 * second
    have hmin : min (2 ^ (event.attempts + 1)) 300 ≤ 300 := Nat.min_le_right _ _
    have := Nat.mul_le_mul_right second hmin
    omega

/-- The event that has been tried is as it was selected, and pending. -/
theorem PublisherOk.tried (hids : (s.app.db.outboxEvents.map (·.id)).Nodup)
    (h : PublisherOk s.app.db.outboxEvents s.marks s.stream p) {event : OutboxEvent} {added : Bool}
    (hphase : p.phase = .updating event added) :
    (∃ row ∈ s.app.db.outboxEvents, event = marked s.marks row) ∧
      marked (s.marks ++ p.marks) event = event ∧ event.status = .pending ∧
      event.publishedAt = none := by
  obtain ⟨⟨row, hrow, hevent⟩, -⟩ := h.updating event added hphase
  have hid : row.id = event.id := by simp [hevent]
  have hnew : ∀ m ∈ p.marks, m.event ≠ event.id := by
    intro m hm he
    have hnodup := (List.nodup_append.mp h.nodup).1
    simp only [held, hphase, List.append_assoc, List.singleton_append] at hnodup
    exact (List.nodup_append.mp hnodup).2.2 m.event (List.mem_map_of_mem hm) event.id
      List.mem_cons_self he
  obtain ⟨row', hrow', hid', hstatus, hpub⟩ := h.due event.id (by simp [held, hphase])
  obtain rfl := eq_of_key hids hrow hrow' (hid.trans hid'.symm)
  refine ⟨⟨row, hrow, hevent⟩, ?_, hevent ▸ hstatus, hevent ▸ hpub⟩
  rw [marked_append hnew, hevent, marked_marked (List.prefix_refl _)]

theorem publisherOk_update (hids : (s.app.db.outboxEvents.map (·.id)).Nodup)
    (h : PublisherOk s.app.db.outboxEvents s.marks s.stream p) {event : OutboxEvent} {added : Bool}
    {cols : OutboxCols} {n k : ℕ} (hphase : p.phase = .updating event added)
    (hcols : (let row := marked (s.marks ++ p.marks) event
      if added then publishedCols p.now row else backoffCols p.now row) = some cols) :
    PublisherOk s.app.db.outboxEvents s.marks s.stream { p with
      phase := .publishing
      marks := p.marks ++ [⟨event.id, p.now, cols⟩]
      published := n
      failed := k } := by
  obtain ⟨⟨row, hrow, hevent⟩, hsame, hstatus, hpub⟩ := h.tried hids hphase
  obtain ⟨-, hentry⟩ := h.updating event added hphase
  simp only [hsame] at hcols
  exact h.mark hphase (markOk_of_cols hrow (by simp [hevent]) hstatus hpub
    (fun hadded => by simpa [hevent] using hentry hadded) hcols)

end steps

/-! ### The whole -/

/-- **The invariant of the publisher.** -/
structure OutboxOk {P : Platform} (s : OutboxState P) : Prop where
  app : Reachable P s.app
  marks : ∀ m ∈ s.marks, MarkOk s.app.db.outboxEvents s.stream m
  stream : ∀ x ∈ s.stream, ∃ row ∈ s.app.db.outboxEvents, x = streamEntry row
  publishers : ∀ (i : ℕ) p, s.publishers[i]? = some p →
    PublisherOk s.app.db.outboxEvents s.marks s.stream p
  disjoint : ∀ (i j : ℕ) p q, i ≠ j → s.publishers[i]? = some p → s.publishers[j]? = some q →
    ∀ id ∈ p.locks, id ∉ q.locks

section whole

variable {P : Platform} {s s' : OutboxState P}

theorem OutboxOk.ids (h : OutboxOk s) : (s.app.db.outboxEvents.map (·.id)).Nodup :=
  (outboxNew_of_reachable h.app).ids

theorem outboxEvents_grows {x x' : State P} (h : Reachable P x) {a : Action (Start P) Pick}
    (hs : (payflow P).step x a = some x') : x.db.outboxEvents <+: x'.db.outboxEvents := by
  rcases step_commit h hs with hdb | ⟨j, pick, b, now, ws, r, -, -, -, -, hdb⟩
  · exact hdb ▸ List.prefix_refl x.db.outboxEvents
  · rw [hdb, outboxEvents_applyAll]
    exact List.prefix_append _ _

theorem outboxOk_app (h : OutboxOk s) {a : Action (Start P) Pick} {app : State P}
    (hs : (payflow P).step s.app a = some app) : OutboxOk { s with app := app } := by
  have hB : s.app.db.outboxEvents ⊆ app.db.outboxEvents := (outboxEvents_grows h.app hs).subset
  refine ⟨.step h.app trivial hs, fun m hm => (h.marks m hm).mono hB (List.Subset.refl _),
    fun x hx => ?_, fun i p hp => ?_, h.disjoint⟩
  · obtain ⟨row, hrow, hxr⟩ := h.stream x hx
    exact ⟨row, hB hrow, hxr⟩
  · exact (h.publishers i p hp).grow hB (List.Subset.refl _)

theorem publisherOk_advance (h : OutboxOk s) {i : ℕ} {p p' : Publisher} {a : PublisherAction}
    {es : List StreamEntry} {ns : List Mark} (hp : s.publishers[i]? = some p)
    (ha : Moves s i p a p' es ns) :
    PublisherOk s.app.db.outboxEvents (s.marks ++ ns) (s.stream ++ es) p' ∧
      (∀ m ∈ ns, m ∈ p.marks) ∧ (∀ x ∈ es, ∃ row ∈ s.app.db.outboxEvents, x = streamEntry row) ∧
      ∀ id ∈ p'.locks, id ∈ p.locks ∨ s.locked i id = false := by
  have hok := h.publishers i p hp
  have hsame : ∀ id ∈ p.locks, id ∈ p.locks ∨ s.locked i id = false := fun _ hid => Or.inl hid
  have hnew : ∀ id, s.locked i id = false → ∀ id' ∈ p.locks ++ [id],
      id' ∈ p.locks ∨ s.locked i id' = false := by
    intro id hfree id' hid
    rcases List.mem_append.mp hid with hid | hid
    · exact Or.inl hid
    · obtain rfl := List.mem_singleton.mp hid
      exact Or.inr hfree
  cases ha with
  | select tie hphase =>
    rw [List.append_nil, List.append_nil]
    exact ⟨publisherOk_select tie h.ids hok hphase, by simp, by simp, hsame⟩
  | locked cs hphase =>
    rw [List.append_nil, List.append_nil]
    exact ⟨publisherOk_locked hok hphase, by simp, by simp, hsame⟩
  | skip c cs ls hphase _ hskip =>
    rw [List.append_nil, List.append_nil]
    rcases hskip with ⟨-, rfl⟩ | ⟨hfree, -, rfl⟩
    · exact ⟨publisherOk_skip hok hphase (Or.inl rfl), by simp, by simp, hsame⟩
    · exact ⟨publisherOk_skip hok hphase (Or.inr rfl), by simp, by simp, hnew _ hfree⟩
  | take c cs hphase _ hfree hdue =>
    rw [List.append_nil, List.append_nil]
    exact ⟨publisherOk_take hok hphase hdue, by simp, by simp, hnew _ hfree⟩
  | xadd event events reply hphase hevents =>
    rw [List.append_nil]
    refine ⟨publisherOk_xadd hok reply hphase hevents, by simp, fun x hx => ?_, hsame⟩
    obtain ⟨row, hrow, hevent⟩ := hok.events event (hevents ▸ List.mem_cons_self)
    split_ifs at hx
    · obtain rfl := List.mem_singleton.mp hx
      exact ⟨row, hrow, by rw [hevent, streamEntry_marked]⟩
    · simp at hx
  | update event added cols hphase hcols =>
    rw [List.append_nil, List.append_nil]
    exact ⟨publisherOk_update h.ids hok hphase hcols, by simp, by simp, hsame⟩
  | refused event added hphase =>
    exact ⟨.finish p (Or.inr rfl), by simp, by simp, by simp [Publisher.finish]⟩
  | commit hphase hevents =>
    exact ⟨.finish p (Or.inl rfl), fun m hm => hm, by simp, by simp [Publisher.finish]⟩
  | rollback => exact ⟨.finish p (Or.inr rfl), by simp, by simp, by simp [Publisher.finish]⟩

/-- The updates of an invocation are about events it has locked. -/
theorem PublisherOk.mark_locked {B : List OutboxEvent} {ms : List Mark} {st : List StreamEntry}
    {p : Publisher} (h : PublisherOk B ms st p) {m : Mark} (hm : m ∈ p.marks) :
    m.event ∈ p.locks := by
  refine h.locked _ ?_
  unfold held
  exact List.mem_append_left _ (List.mem_append_left _ (List.mem_map_of_mem hm))

theorem not_locked {i : ℕ} {id : Uuid} (h : s.locked i id = false) {j : ℕ}
    {q : Publisher} (hij : j ≠ i)
    (hq : s.publishers[j]? = some q) : id ∉ q.locks := by
  intro hid
  have hmem : q ∈ s.publishers.eraseIdx i := List.mem_eraseIdx_iff_getElem?.mpr ⟨j, hij, hq⟩
  have htrue : s.locked i id = true := List.any_eq_true.mpr ⟨q, hmem, by simpa using hid⟩
  simp [h] at htrue

theorem outboxOk_publisher (h : OutboxOk s) {i : ℕ} {p p' : Publisher} {a : PublisherAction}
    {es : List StreamEntry} {ns : List Mark} (hp : s.publishers[i]? = some p)
    (ha : Moves s i p a p' es ns) : OutboxOk { s with
      marks := s.marks ++ ns, stream := s.stream ++ es, publishers := s.publishers.set i p' } := by
  obtain ⟨hok, hns, hes, hlocks⟩ := publisherOk_advance h hp ha
  have hst : s.stream ⊆ s.stream ++ es := List.subset_append_left _ _
  have hlt := (List.getElem?_eq_some_iff.mp hp).1
  have hget : ∀ {j q}, (s.publishers.set i p')[j]? = some q → (j = i ∧ q = p') ∨
      (j ≠ i ∧ s.publishers[j]? = some q) := by
    intro j q hq
    by_cases hj : j = i
    · subst hj
      rw [List.getElem?_set_self hlt] at hq
      exact Or.inl ⟨rfl, (Option.some.inj hq).symm⟩
    · rw [List.getElem?_set_ne (Ne.symm hj)] at hq
      exact Or.inr ⟨hj, hq⟩
  -- another invocation has locked nothing that this one updates or locks now
  have hother : ∀ {j q}, j ≠ i → s.publishers[j]? = some q → ∀ id ∈ p'.locks, id ∉ q.locks := by
    intro j q hj hq id hid
    rcases hlocks id hid with hid | hfree
    · exact h.disjoint i j p q (Ne.symm hj) hp hq id hid
    · exact not_locked hfree hj hq
  refine ⟨h.app, fun m hm => ?_, fun x hx => ?_, fun j q hq => ?_, fun j k q r hjk hq hr => ?_⟩
  · rcases List.mem_append.mp hm with hm | hm
    · exact (h.marks m hm).mono (List.Subset.refl _) hst
    · exact ((h.publishers i p hp).marks m (hns m hm)).mono (List.Subset.refl _) hst
  · rcases List.mem_append.mp hx with hx | hx
    · exact h.stream x hx
    · exact hes x hx
  · rcases hget hq with ⟨rfl, rfl⟩ | ⟨hj, hq⟩
    · exact hok
    · refine (h.publishers j q hq).mono (List.Subset.refl _) hst fun m hm => ?_
      exact h.disjoint i j p q (Ne.symm hj) hp hq _
        ((h.publishers i p hp).mark_locked (hns m hm))
  · rcases hget hq with ⟨rfl, rfl⟩ | ⟨hj, hq'⟩ <;> rcases hget hr with ⟨rfl, rfl⟩ | ⟨hk, hr'⟩
    · exact absurd rfl hjk
    · exact hother hk hr'
    · exact fun id hid hid' => hother hj hq' id hid' hid
    · exact h.disjoint j k q r hjk hq' hr'

theorem outboxOk_publish (h : OutboxOk s) (batchSize : ℕ) : OutboxOk { s with
    publishers := s.publishers ++ [publishPendingOutboxEvents s.app.clock batchSize] } := by
  have hget : ∀ {j : ℕ} {q : Publisher},
      (s.publishers ++ [publishPendingOutboxEvents s.app.clock batchSize])[j]? = some q →
        s.publishers[j]? = some q ∨ q = publishPendingOutboxEvents s.app.clock batchSize := by
    intro j q hq
    rw [List.getElem?_append] at hq
    split_ifs at hq
    · exact Or.inl hq
    · exact Or.inr (List.mem_singleton.mp (List.mem_of_getElem? hq))
  refine ⟨h.app, h.marks, h.stream, fun j q hq => ?_, fun j k q r hjk hq hr => ?_⟩
  · rcases hget hq with hq | rfl
    · exact h.publishers j q hq
    · refine ⟨fun _ => ⟨rfl, rfl⟩, ?_, ?_, ?_, ?_, ?_, ?_, ?_, fun _ => ⟨rfl, rfl⟩⟩ <;>
        simp [publishPendingOutboxEvents, held, candidates]
  · rcases hget hq with hq | rfl <;> rcases hget hr with hr | rfl
    · exact h.disjoint j k q r hjk hq hr
    · simp [publishPendingOutboxEvents]
    · simp [publishPendingOutboxEvents]
    · simp [publishPendingOutboxEvents]

/-- **A step of the whole.** -/
theorem outbox_step_cases {a : OutboxAction P} (hs : s.step a = some s') :
    (∃ b app, a = .app b ∧ (payflow P).step s.app b = some app ∧ s' = { s with app := app }) ∨
    (∃ batchSize, a = .publish batchSize ∧ s' = { s with
      publishers := s.publishers ++ [publishPendingOutboxEvents s.app.clock batchSize] }) ∨
    (∃ i b p p' es ns, a = .publisher i b ∧ s.publishers[i]? = some p ∧ Moves s i p b p' es ns ∧
      s' = { s with
        marks := s.marks ++ ns, stream := s.stream ++ es, publishers := s.publishers.set i p' }) := by
  cases a with
  | app b =>
    simp only [OutboxState.step] at hs
    split at hs
    · rename_i app happ
      exact Or.inl ⟨b, app, rfl, happ, (Option.some.inj hs).symm⟩
    · simp at hs
  | publish batchSize => exact Or.inr (Or.inl ⟨batchSize, rfl, (Option.some.inj hs).symm⟩)
  | publisher i b =>
    simp only [OutboxState.step] at hs
    split at hs
    · rename_i p hp
      split at hs
      · rename_i p' es ns ha
        exact Or.inr (Or.inr ⟨i, b, p, p', es, ns, rfl, hp, moves_of_advance ha,
          (Option.some.inj hs).symm⟩)
      · simp at hs
    · simp at hs

/-- **One step keeps the invariant.** -/
theorem outboxOk_step (h : OutboxOk s) {a : OutboxAction P}
    (hs : s.step a = some s') : OutboxOk s' := by
  rcases outbox_step_cases hs with ⟨b, app, rfl, happ, rfl⟩ | ⟨batchSize, rfl, rfl⟩ |
    ⟨i, b, p, p', es, ns, rfl, hp, hmoves, rfl⟩
  · exact outboxOk_app h happ
  · exact outboxOk_publish h batchSize
  · exact outboxOk_publisher h hp hmoves

theorem outboxOk_init : OutboxOk (OutboxState.init P) := by
  refine ⟨.refl, ?_, ?_, ?_, ?_⟩ <;> simp [OutboxState.init]

theorem outboxOk_of_reachable {C : OutboxState P → OutboxAction P → Prop}
    (h : OutboxReachable P C s) : OutboxOk s :=
  h.invariant outboxOk_init fun hok _ hs => outboxOk_step hok hs

end whole

end Payflow.Spec
