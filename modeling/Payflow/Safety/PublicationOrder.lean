import Payflow.Spec.Publishing

/-! # The order of publication

Two events of one payment or refund are to be published in the order in which they were committed.
That holds while an event enters a batch behind those before it, and a failure puts off no event
that the batch goes on without. -/

namespace Payflow.Safety

open Payflow.Lib Payflow.Model Payflow.Spec

/-- Both events are of one payment or refund, and the first was inserted before the second. -/
def Before (B : List OutboxEvent) (a b : OutboxEvent) : Prop :=
  [a.id, b.id].Sublist (B.map (·.id)) ∧ a.aggregateId = b.aggregateId

instance (B : List OutboxEvent) (a b : OutboxEvent) : Decidable (Before B a b) := by
  unfold Before
  infer_instance

/-- The stream has an entry of the event. -/
def Entered (st : List StreamEntry) (a : OutboxEvent) : Prop := ∃ x ∈ st, x.eventId = a.id.text

instance (st : List StreamEntry) (a : OutboxEvent) : Decidable (Entered st a) := by
  unfold Entered
  infer_instance

/-- **The condition on the steps.** An event that is taken into a batch finds the earlier events of
its payment or refund in the stream or in the batch; and none of those that remain in a batch is
later than an event that could not be added. -/
def inTurn {P : Platform} (s : OutboxState P) : OutboxAction P → Bool
  | .publisher i .lock =>
    match s.publishers[i]? with
    | some p =>
      match p.phase with
      | .locking (c :: _) =>
        decide (p.batchSize ≤ p.selected) || s.locked i c.id || !isDue p.now (marked s.marks c) ||
          decide (∀ a ∈ s.app.db.outboxEvents, Before s.app.db.outboxEvents a c →
            Entered s.stream a ∨ ∃ e ∈ p.events, e.id = a.id)
      | _ => true
    | none => true
  | .publisher i (.xadd (.redisError false)) =>
    match s.publishers[i]? with
    | some p =>
      match p.events with
      | e :: events => decide (∀ b ∈ events, Before s.app.db.outboxEvents e b → Entered s.stream e)
      | [] => true
    | none => true
  | _ => true

section

variable {B new : List OutboxEvent} {st : List StreamEntry} {a b : OutboxEvent}

theorem before_congr {b' : OutboxEvent} (hid : b'.id = b.id)
    (hagg : b'.aggregateId = b.aggregateId) :
    Before B a b' ↔ Before B a b := by
  unfold Before
  rw [hid, hagg]

/-- Events that are inserted later come after those that are there. -/
theorem before_append (hn : ((B ++ new).map (·.id)).Nodup) (hb : b.id ∈ B.map (·.id))
    (h : Before (B ++ new) a b) : Before B a b := by
  obtain ⟨hsub, hagg⟩ := h
  rw [List.map_append] at hn hsub
  obtain ⟨l₁, l₂, hl, h₁, h₂⟩ := List.sublist_append_iff.mp hsub
  refine ⟨?_, hagg⟩
  rcases List.eq_nil_or_concat l₂ with rfl | ⟨l₃, c, rfl⟩
  · rwa [hl, List.append_nil]
  · -- the later of the two would be a new event
    exfalso
    have hlast : b.id = c := by
      have := congrArg List.getLast? hl
      simpa using this
    have hc : c ∈ new.map (·.id) := h₂.subset (by simp)
    exact (List.nodup_append.mp hn).2.2 b.id hb c hc hlast

theorem mem_of_before (hn : ((B ++ new).map (·.id)).Nodup) (ha : a ∈ B ++ new) (h : Before B a b) :
    a ∈ B := by
  have hid : a.id ∈ B.map (·.id) := h.1.subset List.mem_cons_self
  obtain ⟨row, hrow, hid⟩ := List.mem_map.mp hid
  exact eq_of_key hn (List.mem_append_left _ hrow) ha hid ▸ hrow

theorem Entered.append {st' : List StreamEntry} (h : Entered st a) : Entered (st ++ st') a := by
  obtain ⟨x, hx, hid⟩ := h
  exact ⟨x, List.mem_append_left _ hx, hid⟩

theorem snoc_eq_append_cons {A : Type} {l m m' : List A} {c e : A} (h : l ++ [c] = m ++ e :: m') :
    m = l ∧ e = c ∨ ∃ m'', l = m ++ e :: m'' := by
  rcases List.eq_nil_or_concat m' with rfl | ⟨m'', d, rfl⟩
  · obtain ⟨hl, hc⟩ := List.append_inj' h rfl
    exact Or.inl ⟨hl.symm, (List.singleton_inj.mp hc).symm⟩
  · have h' : l ++ [c] = (m ++ e :: m'') ++ [d] := by simp [h]
    exact Or.inr ⟨m'', (List.append_inj' h' rfl).1⟩

/-! ### The invariant -/

/-- The earlier events of the payment or refund of an event in the batch are in the stream, or ahead
of it in the batch. -/
def Ready (B : List OutboxEvent) (st : List StreamEntry) (batch : List OutboxEvent) : Prop :=
  ∀ l e l', batch = l ++ e :: l' → ∀ a ∈ B, Before B a e → Entered st a ∨ ∃ e' ∈ l, e'.id = a.id

/-- The stream has an entry of each earlier event in front of an entry. -/
def InOrder (B : List OutboxEvent) (st : List StreamEntry) : Prop :=
  ∀ l x l', st = l ++ x :: l' → ∀ b ∈ B, x.eventId = b.id.text → ∀ a ∈ B, Before B a b → Entered l a

theorem Ready.grow {batch : List OutboxEvent} (h : Ready B st batch)
    (hn : ((B ++ new).map (·.id)).Nodup) (hbatch : ∀ e ∈ batch, e.id ∈ B.map (·.id)) :
    Ready (B ++ new) st batch := by
  intro l e l' hl a ha hbefore
  have he : e ∈ batch := by simp [hl]
  have hold := before_append hn (hbatch e he) hbefore
  exact h l e l' hl a (mem_of_before hn ha hold) hold

theorem Ready.append {batch : List OutboxEvent} (h : Ready B st batch) (es : List StreamEntry) :
    Ready B (st ++ es) batch := by
  intro l e l' hl a ha hbefore
  exact (h l e l' hl a ha hbefore).imp_left Entered.append

theorem Ready.take {batch : List OutboxEvent} (h : Ready B st batch) {c : OutboxEvent}
    (hc : ∀ a ∈ B, Before B a c → Entered st a ∨ ∃ e ∈ batch, e.id = a.id) :
    Ready B st (batch ++ [c]) := by
  intro l e l' hl a ha hbefore
  rcases snoc_eq_append_cons hl with ⟨rfl, rfl⟩ | ⟨l'', hl'⟩
  · exact hc a ha hbefore
  · exact h l e l'' hl' a ha hbefore

/-- The first event leaves the batch: it is in the stream, or nothing in the batch waits for it. -/
theorem Ready.tail {row e : OutboxEvent} {batch : List OutboxEvent} {st' : List StreamEntry}
    (h : Ready B st (e :: batch)) (hn : (B.map (·.id)).Nodup) (hrow : row ∈ B) (hid : row.id = e.id)
    (hagg : row.aggregateId = e.aggregateId) (hst : ∀ a, Entered st a → Entered st' a)
    (he : ∀ b ∈ batch, Before B e b → Entered st' e) : Ready B st' batch := by
  intro l b l' hl a ha hbefore
  rcases h (e :: l) b l' (by rw [hl]; rfl) a ha hbefore with hentered | ⟨e', he', hid'⟩
  · exact Or.inl (hst a hentered)
  · rcases List.mem_cons.mp he' with rfl | he'
    · obtain rfl := eq_of_key hn hrow ha (hid.trans hid')
      have hbefore' : Before B e' b := ⟨hid ▸ hbefore.1, hagg.symm.trans hbefore.2⟩
      obtain ⟨x, hx, hxid⟩ := he b (by simp [hl]) hbefore'
      exact Or.inl ⟨x, hx, by rw [hxid, hid]⟩
    · exact Or.inr ⟨e', he', hid'⟩

theorem InOrder.grow (h : InOrder B st) (hn : ((B ++ new).map (·.id)).Nodup)
    (hst : ∀ x ∈ st, ∃ row ∈ B, x = streamEntry row) : InOrder (B ++ new) st := by
  intro l x l' hl b hb hx a ha hbefore
  obtain ⟨row, hrow, rfl⟩ := hst x (by simp [hl])
  obtain rfl := eq_of_key hn (List.mem_append_left _ hrow) hb (Uuid.text_inj hx)
  have hold := before_append hn (List.mem_map_of_mem hrow) hbefore
  exact h l _ l' hl row hrow hx a (mem_of_before hn ha hold) hold

theorem InOrder.add {row : OutboxEvent} (h : InOrder B st) (hn : (B.map (·.id)).Nodup)
    (hrow : row ∈ B)
    (he : ∀ a ∈ B, Before B a row → Entered st a) : InOrder B (st ++ [streamEntry row]) := by
  intro l x l' hl b hb hx a ha hbefore
  rcases snoc_eq_append_cons hl with ⟨rfl, rfl⟩ | ⟨l'', hl'⟩
  · obtain rfl := eq_of_key hn hrow hb (Uuid.text_inj hx)
    exact he a ha hbefore
  · exact h l x l'' hl' b hb hx a ha hbefore

end

section

variable {P : Platform} {s s' : OutboxState P}

/-- **The invariant.** -/
structure OrderOk (s : OutboxState P) : Prop where
  ok : OutboxOk s
  ready : ∀ p ∈ s.publishers, Ready s.app.db.outboxEvents s.stream p.events
  inOrder : InOrder s.app.db.outboxEvents s.stream

theorem ready_nil {B : List OutboxEvent} {st : List StreamEntry} : Ready B st [] := by
  intro l e l' hl
  simp at hl

/-- The batch of an invocation and the stream after a step of the invocation. -/
theorem order_advance (h : OrderOk s) {i : ℕ} {p p' : Publisher} {b : PublisherAction}
    {es : List StreamEntry} {ns : List Mark} (hp : s.publishers[i]? = some p)
    (hmoves : Moves s i p b p' es ns) (hturn : inTurn s (.publisher i b) = true) :
    Ready s.app.db.outboxEvents (s.stream ++ es) p'.events ∧
      InOrder s.app.db.outboxEvents (s.stream ++ es) := by
  have hready := h.ready p (List.mem_of_getElem? hp)
  cases hmoves with
  | take c cs hphase hfull hfree hdue =>
    rw [List.append_nil]
    refine ⟨Ready.take hready fun a ha hbefore => ?_, h.inOrder⟩
    simp only [inTurn, hp, hphase, hfree, hdue, Bool.or_false, Bool.not_true, Bool.or_eq_true,
      decide_eq_true_eq] at hturn
    rcases hturn with hle | hturn
    · omega
    · exact hturn a ha ((before_congr (marked_id s.marks c) (marked_aggregateId s.marks c)).mp hbefore)
  | xadd event events reply hphase hevents =>
    obtain ⟨row, hrow, hevent⟩ := (h.ok.publishers i p hp).events event (hevents ▸ List.mem_cons_self)
    rw [hevents] at hready
    have hid : row.id = event.id := by simp [hevent]
    have hagg : row.aggregateId = event.aggregateId := by simp [hevent]
    have hfirst : ∀ a ∈ s.app.db.outboxEvents, Before s.app.db.outboxEvents a row →
        Entered s.stream a := by
      intro a ha hbefore
      rcases hready [] event events rfl a ha ((before_congr hid.symm hagg.symm).mpr hbefore) with
        hentered | ⟨e', he', -⟩
      · exact hentered
      · exact absurd he' List.not_mem_nil
    cases happ : reply.appended with
    | true =>
      have hentry : streamEntry event = streamEntry row := by rw [hevent, streamEntry_marked]
      simp only [if_true, hentry]
      refine ⟨hready.tail h.ok.ids hrow hid hagg (fun a => Entered.append) fun b hb hbefore => ?_,
        h.inOrder.add h.ok.ids hrow hfirst⟩
      exact ⟨streamEntry row, by simp, by rw [← hid]; rfl⟩
    | false =>
      have hreply : reply = .redisError false := by
        cases reply with
        | returned => simp [XaddReply.appended] at happ
        | redisError appended =>
          simp only [XaddReply.appended] at happ
          rw [happ]
      subst hreply
      simp only [inTurn, hp, hevents, decide_eq_true_eq] at hturn
      simp only [Bool.false_eq_true, if_false, List.append_nil]
      exact ⟨hready.tail h.ok.ids hrow hid hagg (fun _ ha => ha) hturn, h.inOrder⟩
  | select | locked | skip | update =>
    rw [List.append_nil]
    exact ⟨hready, h.inOrder⟩
  | refused | commit | rollback =>
    rw [List.append_nil]
    exact ⟨ready_nil, h.inOrder⟩

/-- **One step keeps the invariant.** -/
theorem orderOk_step (h : OrderOk s) {a : OutboxAction P} (ha : inTurn s a = true)
    (hs : s.step a = some s') : OrderOk s' := by
  have hok := outboxOk_step h.ok hs
  rcases outbox_step_cases hs with ⟨b, app, rfl, happ, rfl⟩ | ⟨batchSize, rfl, rfl⟩ |
    ⟨i, b, p, p', es, ns, rfl, hp, hmoves, rfl⟩
  · obtain ⟨new, hnew⟩ := outboxEvents_grows h.ok.app happ
    have hn : ((s.app.db.outboxEvents ++ new).map (·.id)).Nodup := hnew ▸ hok.ids
    refine ⟨hok, fun p hp => ?_, ?_⟩
    · obtain ⟨j, hj, rfl⟩ := List.getElem_of_mem hp
      have hbatch : ∀ e ∈ s.publishers[j].events, e.id ∈ s.app.db.outboxEvents.map (·.id) := by
        intro e he
        obtain ⟨row, hrow, rfl⟩ :=
          (h.ok.publishers j _ (List.getElem?_eq_getElem hj)).events e he
        simpa using ⟨row, hrow, rfl⟩
      show Ready app.db.outboxEvents s.stream _
      rw [← hnew]
      exact (h.ready _ hp).grow hn hbatch
    · show InOrder app.db.outboxEvents s.stream
      rw [← hnew]
      exact h.inOrder.grow hn h.ok.stream
  · refine ⟨hok, fun p hp => ?_, h.inOrder⟩
    rcases List.mem_append.mp hp with hp | hp
    · exact h.ready p hp
    · rw [List.mem_singleton.mp hp]
      exact ready_nil
  · obtain ⟨hready, horder⟩ := order_advance h hp hmoves ha
    refine ⟨hok, fun q hq => ?_, horder⟩
    rcases List.mem_or_eq_of_mem_set hq with hq | rfl
    · exact (h.ready q hq).append es
    · exact hready

theorem orderOk_of_reaches {s₀ : OutboxState P} (h : OrderOk s₀)
    (hs : Reaches OutboxState.step (fun s a => inTurn s a = true) s₀ s) : OrderOk s :=
  hs.invariant h fun hok ha hstep => orderOk_step hok ha hstep

theorem orderOk_init : OrderOk (OutboxState.init P) := by
  refine ⟨outboxOk_init, fun p hp => absurd hp List.not_mem_nil, fun l x l' hl => ?_⟩
  simp [OutboxState.init] at hl

/-- The rows that are committed stay in front of those that follow. -/
theorem rows_grow (h : OutboxOk s) {C : OutboxState P → OutboxAction P → Prop}
    (hs : Reaches OutboxState.step C s s') :
    OutboxOk s' ∧ s.app.db.outboxEvents <+: s'.app.db.outboxEvents := by
  induction hs with
  | refl => exact ⟨h, List.prefix_refl _⟩
  | step _ _ hs ih =>
    refine ⟨outboxOk_step ih.1 hs, ih.2.trans ?_⟩
    rcases outbox_step_cases hs with ⟨b, app, rfl, happ, rfl⟩ | ⟨batchSize, rfl, rfl⟩ |
      ⟨i, b, p, p', es, ns, rfl, hp, hmoves, rfl⟩
    · exact outboxEvents_grows ih.1.app happ
    · exact List.prefix_refl _
    · exact List.prefix_refl _

end

/-- The earliest entry of an event. -/
def earliest (st : List StreamEntry) (event : OutboxEvent) : Option ℕ :=
  st.findIdx? fun x => x.eventId = event.id.text

theorem earliest_lt {st : List StreamEntry} {a b : OutboxEvent}
    (h : ∀ l x l', st = l ++ x :: l' → x.eventId = b.id.text → Entered l a) {n : ℕ}
    (hn : earliest st b = some n) : ∃ m, earliest st a = some m ∧ m < n := by
  obtain ⟨hlt, hb, -⟩ := List.findIdx?_eq_some_iff_getElem.mp hn
  have hsplit : st = st.take n ++ st[n] :: st.drop (n + 1) := by simp
  obtain ⟨x, hx, hid⟩ := h _ _ _ hsplit (by simpa using hb)
  have hsome : ((st.take n).findIdx? fun x => x.eventId = a.id.text).isSome = true := by
    rw [List.findIdx?_isSome, List.any_eq_true]
    exact ⟨x, hx, by simpa using hid⟩
  obtain ⟨m, hm⟩ := Option.isSome_iff_exists.mp hsome
  have hlen : m < n := by
    obtain ⟨hm', -⟩ := List.findIdx?_eq_some_iff_getElem.mp hm
    rw [List.length_take] at hm'
    omega
  refine ⟨m, ?_, hlen⟩
  unfold earliest
  rw [hsplit, List.findIdx?_append, hm, Option.some_or]

/-- **Main result.** When every step meets the condition, an event whose transaction has committed
before that of another one of the same payment or refund has its earliest entry in front. -/
theorem published_in_order {P : Platform} {s₀ s : OutboxState P} {a b : OutboxEvent}
    (h : OutboxReachable P (fun s a => inTurn s a = true) s₀)
    (hs : Reaches OutboxState.step (fun s a => inTurn s a = true) s₀ s) (ha : a ∈ s₀.rows)
    (hb : b ∈ s.rows) (hnew : ∀ row ∈ s₀.rows, row.id ≠ b.id)
    (hagg : a.aggregateId = b.aggregateId) :
    ∀ n, earliest s.stream b = some n → ∃ m, earliest s.stream a = some m ∧ m < n := by
  have horder₀ := orderOk_of_reaches orderOk_init h
  have horder := orderOk_of_reaches horder₀ hs
  obtain ⟨-, new, hgrow⟩ := rows_grow horder₀.ok hs
  obtain ⟨base, hbase, rfl⟩ := List.mem_map.mp ha
  obtain ⟨later, hlater, rfl⟩ := List.mem_map.mp hb
  have hlater' : later ∈ new := by
    rw [← hgrow] at hlater
    rcases List.mem_append.mp hlater with hold | hnew'
    · exact absurd (by simp) (hnew _ (List.mem_map_of_mem hold))
    · exact hnew'
  have hbefore : Before s.app.db.outboxEvents base later := by
    refine ⟨?_, by simpa using hagg⟩
    rw [← hgrow, List.map_append]
    exact List.Sublist.append (List.singleton_sublist.mpr (List.mem_map_of_mem hbase))
      (List.singleton_sublist.mpr (List.mem_map_of_mem hlater'))
  intro n hn
  refine earliest_lt (fun l x l' hl hx => ?_) hn
  obtain ⟨y, hy, hid⟩ := horder.inOrder l x l' hl later hlater (by simpa using hx) base
    (hgrow ▸ List.mem_append_left _ hbase) hbefore
  exact ⟨y, hy, by simpa using hid⟩

/-! ### Two events of a payment -/

/-- The first event of the payment is committed. -/
def firstEvent : List OutboxAct := appScript (createPaymentScript 0 1 ++ startPaymentScript 1 0 4)

/-- The second one is committed, and an invocation selects both. -/
def secondEvent : List OutboxAct := appScript (payScript 1 6) ++ selectScript 0 2

/-- What the runs below show of the events. -/
def eventKeys (s : OutboxState examplePlatform) : List (Uuid × Uuid) :=
  s.rows.map fun e => (e.id, e.aggregateId)

theorem eventKeys_cases {s₀ s : OutboxState examplePlatform}
    (h₀ : eventKeys s₀ = [(exampleUuid 5, exampleUuid 1)])
    (h : eventKeys s = [(exampleUuid 5, exampleUuid 1), (exampleUuid 8, exampleUuid 1)]) :
    ∃ a b, a ∈ s₀.rows ∧ b ∈ s.rows ∧ (∀ row ∈ s₀.rows, row.id ≠ b.id) ∧
      a.aggregateId = b.aggregateId ∧ a.id = exampleUuid 5 ∧ b.id = exampleUuid 8 := by
  unfold eventKeys at h₀ h
  obtain ⟨a, hrows₀, ha⟩ := List.map_eq_singleton_iff.mp h₀
  obtain ⟨a', l, hrows, -, h⟩ := List.map_eq_cons_iff.mp h
  obtain ⟨b, rfl, hb⟩ := List.map_eq_singleton_iff.mp h
  obtain ⟨ha, haagg⟩ := Prod.mk.inj ha
  obtain ⟨hb, hbagg⟩ := Prod.mk.inj hb
  refine ⟨a, b, by simp [hrows₀], by simp [hrows], fun row hrow => ?_,
    haagg.trans hbagg.symm, ha, hb⟩
  rw [hrows₀, List.mem_singleton] at hrow
  rw [hrow, ha, hb]
  decide

theorem earliest_eq (st : List StreamEntry) (event : OutboxEvent) :
    earliest st event = (st.map (·.eventId)).findIdx? fun x => x = event.id.text := by
  rw [List.findIdx?_map]
  rfl

/-- An invocation publishes them. -/
theorem published_in_order_twoEvents : ∃ (s₀ s : OutboxState examplePlatform) (a b : OutboxEvent),
    (a ∈ s₀.rows ∧ b ∈ s.rows ∧ earliest s.stream b = some 1) ∧
    ∀ n, earliest s.stream b = some n → ∃ m, earliest s.stream a = some m ∧ m < n := by
  have h : (runSteps OutboxState.step inTurn (.init _) firstEvent).bind (fun s₀ =>
      (runSteps OutboxState.step inTurn s₀ (secondEvent ++ addScript 0 [.returned, .returned])).map
        fun s => (eventKeys s₀, eventKeys s, s.stream.map (·.eventId))) =
      some ([(exampleUuid 5, exampleUuid 1)],
        [(exampleUuid 5, exampleUuid 1), (exampleUuid 8, exampleUuid 1)],
        [(exampleUuid 5).text, (exampleUuid 8).text]) := by decide +kernel
  obtain ⟨s₀, hs₀, h⟩ := Option.bind_eq_some_iff.mp h
  obtain ⟨s, hs, h⟩ := Option.map_eq_some_iff.mp h
  obtain ⟨h₀, h⟩ := Prod.mk.inj h
  obtain ⟨h, hstream⟩ := Prod.mk.inj h
  obtain ⟨a, b, ha, hb, hnew, hagg, -, hbid⟩ := eventKeys_cases h₀ h
  have hturn : ∀ (s : OutboxState examplePlatform) (a : OutboxAct), inTurn s a = true →
      inTurn s a = true := fun _ _ h => h
  refine ⟨s₀, s, a, b, ⟨ha, hb, ?_⟩,
    published_in_order (.runSteps hturn .refl hs₀) (.runSteps hturn .refl hs) ha hb hnew hagg⟩
  rw [earliest_eq, hstream, hbid]
  decide

/-- The first one cannot be added, the second one is, and the first one is added
two seconds later. -/
theorem not_published_in_order : ∃ (s₀ s : OutboxState examplePlatform) (a b : OutboxEvent),
    OutboxReachable examplePlatform (fun _ _ => True) s₀ ∧
    Reaches OutboxState.step (fun _ _ => True) s₀ s ∧ a ∈ s₀.rows ∧ b ∈ s.rows ∧
    (∀ row ∈ s₀.rows, row.id ≠ b.id) ∧ a.aggregateId = b.aggregateId ∧
    earliest s.stream a = some 1 ∧ earliest s.stream b = some 0 := by
  have h : (runSteps OutboxState.step (fun _ _ => true) (.init _) firstEvent).bind (fun s₀ =>
      (runSteps OutboxState.step (fun _ _ => true) s₀
        (secondEvent ++ addScript 0 [.redisError false, .returned] ++ [.publisher 0 .commit] ++
          appScript [.tick (2 * second)] ++ selectScript 1 1 ++ addScript 1 [.returned] ++
          [.publisher 1 .commit])).map
        fun s => (eventKeys s₀, eventKeys s, s.stream.map (·.eventId))) =
      some ([(exampleUuid 5, exampleUuid 1)],
        [(exampleUuid 5, exampleUuid 1), (exampleUuid 8, exampleUuid 1)],
        [(exampleUuid 8).text, (exampleUuid 5).text]) := by decide +kernel
  obtain ⟨s₀, hs₀, h⟩ := Option.bind_eq_some_iff.mp h
  obtain ⟨s, hs, h⟩ := Option.map_eq_some_iff.mp h
  obtain ⟨h₀, h⟩ := Prod.mk.inj h
  obtain ⟨h, hstream⟩ := Prod.mk.inj h
  obtain ⟨a, b, ha, hb, hnew, hagg, haid, hbid⟩ := eventKeys_cases h₀ h
  refine ⟨s₀, s, a, b, .runSteps (fun _ _ _ => trivial) .refl hs₀,
    .runSteps (fun _ _ _ => trivial) .refl hs, ha, hb, hnew, hagg, ?_, ?_⟩
  · rw [earliest_eq, hstream, haid]
    decide
  · rw [earliest_eq, hstream, hbid]
    decide

end Payflow.Safety
