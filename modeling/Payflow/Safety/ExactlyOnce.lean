import Payflow.Safety.Publication

/-! # No event is published twice

The entries of an event are counted against the updates that publish it: the committed
ones, and those of the invocation that holds the event. While no invocation is rolled
back, the numbers agree. -/

namespace Payflow.Safety

open Payflow.Lib Payflow.Model Payflow.Spec

/-! ### The numbers -/

/-- The entries of an event. -/
def entriesOf (st : List StreamEntry) (id : Uuid) : ℕ := st.countP fun x => x.eventId = id.text

/-- The updates that publish an event. -/
def publications (ms : List Mark) (id : Uuid) : ℕ :=
  ms.countP fun m => m.event = id && m.cols.status = .published

/-- The entries of an event that an invocation has added, as the invocation knows. -/
def addedBy (p : Publisher) (id : Uuid) : ℕ :=
  publications p.marks id + match p.phase with
    | .updating e true => if e.id = id then 1 else 0
    | _ => 0

theorem publications_append (ms ns : List Mark) (id : Uuid) :
    publications (ms ++ ns) id = publications ms id + publications ns id := List.countP_append

/-- Whether the last of the updates publishes the event. -/
def publishedBy (ms : List Mark) (id : Uuid) : Bool :=
  match lastMark ms id with
  | some m => m.cols.status = .published
  | none => false

/-- Updates of different events publish an event once, or do not. -/
theorem publications_of_nodup {ms : List Mark} (hn : (ms.map (·.event)).Nodup) (id : Uuid) :
    publications ms id = (publishedBy ms id).toNat := by
  induction ms with
  | nil => rfl
  | cons m ms ih =>
    rw [List.map_cons, List.nodup_cons] at hn
    have happ : m :: ms = [m] ++ ms := rfl
    by_cases hid : m.event = id
    · have hnone : ∀ m' ∈ ms, m'.event ≠ id := by
        intro m' hm' he
        exact hn.1 (hid ▸ he ▸ List.mem_map_of_mem hm')
      have hzero : publications ms id = 0 := by
        unfold publications
        rw [List.countP_eq_zero]
        intro m' hm'
        simp [hnone m' hm']
      have hlast : lastMark (m :: ms) id = some m := by
        rw [happ, lastMark_append, lastMark_none hnone, Option.none_or]
        simp [lastMark, hid]
      rw [happ, publications_append, hzero, ← happ]
      unfold publishedBy
      rw [hlast]
      by_cases hst : m.cols.status = .published <;> simp [publications, hid, hst]
    · have hlast : lastMark (m :: ms) id = lastMark ms id := by
        rw [happ, lastMark_append]
        simp [lastMark, hid]
      have hsame : publishedBy (m :: ms) id = publishedBy ms id := by
        unfold publishedBy
        rw [hlast]
      rw [hsame, ← ih hn.2, happ, publications_append]
      simp [publications, hid]

/-- The committed row is published when the last update says so. -/
theorem status_marked {ms : List Mark} {row : OutboxEvent} (hnew : row.status = .pending) :
    (marked ms row).status = if publishedBy ms row.id then .published else .pending := by
  unfold marked publishedBy
  cases lastMark ms row.id with
  | none => simpa using hnew
  | some m =>
    show m.cols.status = _
    cases hst : m.cols.status <;> simp [hst]

theorem sum_set (f : Publisher → ℕ) {q : Publisher} :
    ∀ {l : List Publisher} {i : ℕ} {p : Publisher}, l[i]? = some p →
      ((l.set i q).map f).sum + f p = (l.map f).sum + f q
  | [], i, p, h => by simp at h
  | x :: l, 0, p, h => by
    obtain rfl := Option.some.inj h
    simp only [List.set_cons_zero, List.map_cons, List.sum_cons]
    omega
  | x :: l, i + 1, p, h => by
    have ih := sum_set f (q := q) (l := l) (i := i) h
    simp only [List.set_cons_succ, List.map_cons, List.sum_cons]
    omega

section

variable {P : Platform} {s s' : OutboxState P}

/-! ### The committed updates -/

/-- An event is published by at most one of the committed updates, the last one. -/
def PublishedOnce (s : OutboxState P) : Prop :=
  ∀ id, publications s.marks id = (publishedBy s.marks id).toNat

theorem PublisherOk.marks_nodup {B : List OutboxEvent} {ms : List Mark} {st : List StreamEntry}
    {p : Publisher} (h : PublisherOk B ms st p) : (p.marks.map (·.event)).Nodup := by
  have hheld := (List.nodup_append.mp h.nodup).1
  unfold held at hheld
  exact (List.nodup_append.mp (List.nodup_append.mp hheld).1).1

theorem publishedOnce_commit (hok : OutboxOk s) (h : PublishedOnce s) {i : ℕ} {p : Publisher}
    (hp : s.publishers[i]? = some p) (id : Uuid) :
    publications (s.marks ++ p.marks) id = (publishedBy (s.marks ++ p.marks) id).toNat := by
  have hn := PublisherOk.marks_nodup (hok.publishers i p hp)
  rw [publications_append, publications_of_nodup hn]
  cases hm : lastMark p.marks id with
  | none =>
    have hlast : lastMark (s.marks ++ p.marks) id = lastMark s.marks id := by
      rw [lastMark_append, hm, Option.none_or]
    have hsame : publishedBy (s.marks ++ p.marks) id = publishedBy s.marks id := by
      unfold publishedBy
      rw [hlast]
    have hnone : publishedBy p.marks id = false := by
      unfold publishedBy
      rw [hm]
    rw [hsame, hnone, h id]
    rfl
  | some m =>
    have hlast : lastMark (s.marks ++ p.marks) id = lastMark p.marks id := by
      rw [lastMark_append, hm, Option.some_or]
    have hsame : publishedBy (s.marks ++ p.marks) id = publishedBy p.marks id := by
      unfold publishedBy
      rw [hlast]
    -- the event has not been published before
    obtain ⟨hmem, rfl⟩ := lastMark_some hm
    obtain ⟨row, hrow, hid, -⟩ := (hok.publishers i p hp).marks m hmem
    have hpending := pending_of_mark hok hp hmem hrow hid
    have hnew := ((outboxNew_of_reachable hok.app).rows row hrow).1.status
    rw [status_marked hnew, hid] at hpending
    have hbefore : publishedBy s.marks m.event = false := by
      by_contra htrue
      rw [Bool.not_eq_false] at htrue
      simp [htrue] at hpending
    rw [hsame, h m.event, hbefore]
    simp

theorem publishedOnce_step (hok : OutboxOk s) (h : PublishedOnce s) {a : OutboxAction P}
    (hs : s.step a = some s') : PublishedOnce s' := by
  rcases outbox_step_cases hs with ⟨b, app, rfl, happ, rfl⟩ | ⟨batchSize, rfl, rfl⟩ |
    ⟨i, b, p, p', es, ns, rfl, hp, hmoves, rfl⟩
  · exact h
  · exact h
  · intro id
    cases hmoves with
    | commit => exact publishedOnce_commit hok h hp id
    | _ => simpa using h id

/-! ### The stream -/

/-- No invocation has been rolled back. -/
def NoneRolledBack (s : OutboxState P) : Prop := ∀ p ∈ s.publishers, p.phase ≠ .rolledBack

/-- The stream has as many entries of an event as there are updates that publish it. -/
def Balanced (s : OutboxState P) : Prop :=
  ∀ id, entriesOf s.stream id =
    publications s.marks id + (s.publishers.map fun p => addedBy p id).sum

/-- A `RedisError` means that the entry has not been appended. -/
def AppendsIfReturned (_ : OutboxState P) (a : OutboxAction P) : Prop :=
  ∀ i, a ≠ .publisher i (.xadd (.redisError true))

/-- An invocation that has no entry to account for but those of its updates. -/
theorem addedBy_idle (p : Publisher) (id : Uuid) (h : ∀ e, p.phase ≠ .updating e true) :
    addedBy p id = publications p.marks id := by
  unfold addedBy
  split
  · rename_i e he
    exact absurd he (h e)
  · rfl

/-- What the step of an invocation adds to the stream, it adds to the invocation or commits. -/
theorem addedBy_advance (hok : OutboxOk s) {i : ℕ} {p p' : Publisher} {b : PublisherAction}
    {es : List StreamEntry} {ns : List Mark} (hp : s.publishers[i]? = some p)
    (hmoves : Moves s i p b p' es ns) (hreply : b ≠ .xadd (.redisError true))
    (hphase : p'.phase ≠ .rolledBack) (id : Uuid) :
    entriesOf es id + addedBy p id = publications ns id + addedBy p' id := by
  have hnone : entriesOf [] id = 0 := rfl
  have hno : publications [] id = 0 := rfl
  cases hmoves with
  | select tie h =>
    rw [hnone, hno, addedBy_idle p id (by simp [h]), addedBy_idle _ id (by simp)]
  | locked cs h =>
    rw [hnone, hno, addedBy_idle p id (by simp [h]), addedBy_idle _ id (by simp)]
  | skip c cs ls h =>
    rw [hnone, hno, addedBy_idle p id (by simp [h]), addedBy_idle _ id (by simp)]
  | take c cs h =>
    rw [hnone, hno, addedBy_idle p id (by simp [h]), addedBy_idle _ id (by simp)]
  | xadd event events reply h =>
    rw [addedBy_idle p id (by simp [h])]
    cases reply with
    | returned =>
      have hone : entriesOf [streamEntry event] id = if event.id = id then 1 else 0 := by
        have htext : event.id.text = id.text ↔ event.id = id :=
          ⟨Uuid.text_inj, congrArg Uuid.text⟩
        simp [entriesOf, streamEntry, htext]
      simp [XaddReply.appended, addedBy, hone, hno]
      omega
    | redisError appended =>
      cases appended with
      | true => exact absurd rfl hreply
      | false => simp [XaddReply.appended, addedBy, hnone, hno]
  | update event added cols h hcols =>
    obtain ⟨-, hsame, hst, -⟩ := (hok.publishers i p hp).tried hok.ids h
    simp only [hsame] at hcols
    cases added with
    | true =>
      have hpub : cols.status = .published := by
        simp only [if_true, publishedCols] at hcols
        split_ifs at hcols
        exact Option.some.inj hcols ▸ rfl
      simp [addedBy, h, hnone, publications, hpub, List.countP_cons]
    | false =>
      have hpub : cols.status ≠ .published := by
        simp only [Bool.false_eq_true, if_false, backoffCols] at hcols
        split_ifs at hcols
        rw [← Option.some.inj hcols]
        simp [hst]
      simp [addedBy, h, hnone, publications, hpub]
  | refused => exact absurd rfl hphase
  | commit h =>
    have hafter : addedBy (p.finish .committed) id = 0 := rfl
    rw [hnone, hafter, addedBy_idle p id (by simp [h])]
    omega
  | rollback => exact absurd rfl hphase

theorem balanced_step (hok : OutboxOk s) (h : NoneRolledBack s → Balanced s) {a : OutboxAction P}
    (ha : AppendsIfReturned s a) (hs : s.step a = some s') (hnone : NoneRolledBack s') :
    Balanced s' := by
  rcases outbox_step_cases hs with ⟨b, app, rfl, happ, rfl⟩ | ⟨batchSize, rfl, rfl⟩ |
    ⟨i, b, p, p', es, ns, rfl, hp, hmoves, rfl⟩
  · exact h hnone
  · intro id
    have hb := h (fun p hp => hnone p (List.mem_append_left _ hp)) id
    have hzero : addedBy (publishPendingOutboxEvents s.app.clock batchSize) id = 0 := rfl
    simpa [hzero] using hb
  · have hphase : p'.phase ≠ .rolledBack :=
      hnone p' (List.mem_of_getElem? (List.getElem?_set_self (List.getElem?_eq_some_iff.mp hp).1))
    have hbefore : NoneRolledBack s := by
      intro q hq hback
      obtain ⟨j, hj, hq⟩ := List.getElem_of_mem hq
      by_cases hij : i = j
      · -- an invocation that has been rolled back goes no further
        subst hij
        rw [List.getElem?_eq_getElem hj, hq] at hp
        obtain rfl := Option.some.inj hp
        cases hmoves with
        | refused => exact hphase rfl
        | rollback => exact hphase rfl
        | _ => simp_all
      · refine hnone q ?_ hback
        exact List.mem_of_getElem? (i := j) (by rw [List.getElem?_set_ne hij, List.getElem?_eq_getElem hj, hq])
    intro id
    have hb := h hbefore id
    have hadv := addedBy_advance hok hp hmoves (fun hb => ha i (by rw [hb])) hphase id
    have hsum := sum_set (fun p => addedBy p id) (q := p') hp
    have hes : entriesOf (s.stream ++ es) id = entriesOf s.stream id + entriesOf es id :=
      List.countP_append
    have hns := publications_append s.marks ns id
    show entriesOf (s.stream ++ es) id =
      publications (s.marks ++ ns) id + ((s.publishers.set i p').map fun p => addedBy p id).sum
    omega

theorem balanced_of_reachable (h : OutboxReachable P AppendsIfReturned s) :
    OutboxOk s ∧ PublishedOnce s ∧ (NoneRolledBack s → Balanced s) := by
  refine Reaches.invariant (I := fun s => OutboxOk s ∧ PublishedOnce s ∧
    (NoneRolledBack s → Balanced s)) ?_ ?_ h
  · exact ⟨outboxOk_init, fun id => rfl, fun _ id => rfl⟩
  · rintro s a s' ⟨hok, honce, hb⟩ ha hs
    exact ⟨outboxOk_step hok hs, publishedOnce_step hok honce hs, balanced_step hok hb ha hs⟩

/-- An invocation has added nothing for an event that it does not hold. -/
theorem addedBy_zero {p : Publisher} {id : Uuid} (hid : id ∉ held p) : addedBy p id = 0 := by
  have hmarks : publications p.marks id = 0 := by
    unfold publications
    rw [List.countP_eq_zero]
    intro m hm
    have hne : m.event ≠ id := by
      rintro rfl
      exact hid (List.mem_append_left _ (List.mem_append_left _ (List.mem_map_of_mem hm)))
    simp [hne]
  unfold addedBy
  rw [hmarks]
  split
  · rename_i e he
    have hne : e.id ≠ id := by
      rintro rfl
      exact hid (by simp [held, he])
    simp [hne]
  · rfl

theorem sum_addedBy_zero {id : Uuid} (h : ∀ p ∈ s.publishers, id ∉ held p) :
    (s.publishers.map fun p => addedBy p id).sum = 0 := by
  refine List.sum_eq_zero fun n hn => ?_
  obtain ⟨p, hp, rfl⟩ := List.mem_map.mp hn
  exact addedBy_zero (h p hp)

theorem held_of_committed {B : List OutboxEvent} {ms : List Mark} {st : List StreamEntry}
    {p : Publisher} (h : PublisherOk B ms st p) (hp : p.phase = .committed) : held p = [] := by
  obtain ⟨hmarks, hevents⟩ := h.committed hp
  simp [held, hp, hmarks, hevents]

end

/-- **Main result.** While no invocation is rolled back, a published event has one entry in the
stream, and a pending one, unless an invocation that has yet to commit has locked it, has none. -/
theorem published_exactly_once {P : Platform} {s : OutboxState P}
    (h : OutboxReachable P AppendsIfReturned s)
    (hnone : ∀ p ∈ s.publishers, p.phase ≠ .rolledBack) :
    ∀ row ∈ s.rows,
      (row.status = .published → s.stream.countP (fun x => x.eventId = row.id.text) = 1) ∧
      (row.status = .pending → (∀ p ∈ s.publishers, p.phase = .committed ∨ row.id ∉ p.locks) →
        s.stream.countP (fun x => x.eventId = row.id.text) = 0) := by
  obtain ⟨hok, honce, hb⟩ := balanced_of_reachable h
  intro row hrow
  obtain ⟨base, hbase, rfl⟩ := List.mem_map.mp hrow
  have hnew := ((outboxNew_of_reachable hok.app).rows base hbase).1.status
  have hb' := hb hnone base.id
  have hst : (marked s.marks base).status =
      if publishedBy s.marks base.id then .published else .pending := status_marked hnew
  unfold entriesOf at hb'
  rw [marked_id, hb', honce base.id]
  constructor
  · intro hpub
    -- the invocations hold pending events only
    have hheld : ∀ p ∈ s.publishers, base.id ∉ held p := by
      intro p hp hid
      obtain ⟨j, hj, rfl⟩ := List.getElem_of_mem hp
      obtain ⟨row, hrow, hid, hpending, -⟩ :=
        (hok.publishers j _ (List.getElem?_eq_getElem hj)).due _ hid
      obtain rfl := eq_of_key hok.ids hrow hbase hid
      simp [hpub] at hpending
    rw [sum_addedBy_zero hheld]
    rw [hst] at hpub
    by_cases hp : publishedBy s.marks base.id = true
    · simp [hp]
    · simp [hp] at hpub
  · intro hpending hlocks
    have hheld : ∀ p ∈ s.publishers, base.id ∉ held p := by
      intro p hp hid
      obtain ⟨j, hj, rfl⟩ := List.getElem_of_mem hp
      have hpub := hok.publishers j _ (List.getElem?_eq_getElem hj)
      rcases hlocks _ hp with hcommitted | hfree
      · rw [held_of_committed hpub hcommitted] at hid
        exact absurd hid List.not_mem_nil
      · exact hfree (hpub.locked _ hid)
    rw [sum_addedBy_zero hheld]
    rw [hst] at hpending
    by_cases hp : publishedBy s.marks base.id = true
    · simp [hp] at hpending
    · simp [hp]

/-- The check that `AppendsIfReturned` asks for. -/
def appendsIfReturned (_ : OutboxState examplePlatform) : OutboxAct → Bool
  | .publisher _ (.xadd (.redisError true)) => false
  | _ => true

theorem appendsIfReturned_of_check (s : OutboxState examplePlatform) (a : OutboxAct)
    (h : appendsIfReturned s a = true) : AppendsIfReturned s a := by
  rintro i rfl
  simp [appendsIfReturned] at h

/-- Two events, and two invocations that select both; they have been published by the first one. -/
theorem published_exactly_once_overlapping : ∃ s : OutboxState examplePlatform,
    (s.rows.map (·.status) = [.published, .published] ∧
      s.publishers.map (fun p => p.result.isSome) = [true, true]) ∧
    ∀ row ∈ s.rows,
      (row.status = .published → s.stream.countP (fun x => x.eventId = row.id.text) = 1) ∧
      (row.status = .pending → (∀ p ∈ s.publishers, p.phase = .committed ∨ row.id ∉ p.locks) →
        s.stream.countP (fun x => x.eventId = row.id.text) = 0) := by
  have h : (runSteps OutboxState.step appendsIfReturned (.init _) overlapping).map (fun s =>
      (s.rows.map (·.status), s.publishers.map fun p => p.result.isSome)) =
      some ([.published, .published], [true, true]) := by decide +kernel
  obtain ⟨s, hs, h⟩ := Option.map_eq_some_iff.mp h
  obtain ⟨hrows, hresults⟩ := Prod.mk.inj h
  refine ⟨s, ⟨hrows, hresults⟩,
    published_exactly_once (.runSteps appendsIfReturned_of_check .refl hs) fun p hp hback => ?_⟩
  have hmem : p.result.isSome ∈ [true, true] := by
    rw [← hresults]
    exact List.mem_map_of_mem hp
  simp [Publisher.result, hback] at hmem

end Payflow.Safety
