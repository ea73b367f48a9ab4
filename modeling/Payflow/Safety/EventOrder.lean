import Payflow.Lib.Removal
import Payflow.Lib.Ties
import Payflow.Model.History
import Payflow.Safety.Webhooks
import Payflow.Spec.OutboxInserts

/-! # The order of the history

`created_at` is when the transaction of an event has started, and transactions need not commit in
the order in which they have started: `receive_provider_webhook` inserts its webhook event before it
asks for the lock of the payment. So `retrieve_payment_events` shows the events of a payment in the
order of their commits exactly if their transactions have started in that order. -/

namespace Payflow.Safety

open Payflow.Lib Payflow.Model Payflow.Spec

variable {P : Platform} {s s' : State P} {as : List (Action (Start P) Pick)}

/-! ### Commits and what is shown -/

/-- An event that was committed, and when its transaction had started. -/
structure EventCommit where
  started : ℕ
  event : PaymentEvent

/-- The events that a step commits. -/
def commitsOf (s : State P) : Action (Start P) Pick → List EventCommit
  | .step pid _ =>
    match s.procs[pid]? with
    | some ⟨_, .inTxn _ ⟨.pure _, ws, _, now⟩ _⟩ =>
      (ws.filterMap newPaymentEvent?).map fun e => ⟨now, e⟩
    | _ => []
  | _ => []

/-- The events that a run commits, one after another. -/
def commits (s : State P) : List (Action (Start P) Pick) → List EventCommit
  | [] => []
  | a :: as => commitsOf s a ++
    match (payflow P).step s a with
    | some s' => commits s' as
    | none => []

/-- Whatever `retrieve_payment_events` shows after the run is in the order of the commits, if its
first statement has seen the database at any time before. -/
def ShownInOrder (as : List (Action (Start P) Pick)) (s : State P) : Prop :=
  ∀ (tie : Uuid → ℕ) (s₁ : State P) paymentId merchantId events, Reachable P s₁ →
    Machine.Reachable (payflow P) s₁ s →
    retrievePaymentEvents tie s₁.db s.db paymentId merchantId = .ok events →
    events = ((commits (init P) as).map (·.event)).filter fun e => e.paymentId = paymentId

/-- The transactions that have committed events of one payment had started in the order of their
commits, at different times. -/
def StartedInOrder (cs : List EventCommit) : Prop :=
  cs.Pairwise fun c c' => c.event.paymentId = c'.event.paymentId → c.started < c'.started

instance (cs : List EventCommit) : Decidable (StartedInOrder cs) := by
  unfold StartedInOrder
  infer_instance

/-! ### The table -/

/-- **A step** adds to the table what it commits, and the events have the time of the start. -/
theorem commitsOf_step (h : Reachable P s) {a : Action (Start P) Pick}
    (hs : (payflow P).step s a = some s') :
    s'.db.paymentEvents = s.db.paymentEvents ++ (commitsOf s a).map (·.event) ∧
      ∀ c ∈ commitsOf s a, c.event.createdAt = c.started := by
  by_cases hcommit : ∃ pid pick b now ws, ∃ r : BRes b,
      a = .step pid pick ∧ Machine.AtCommit s pid b now ws r
  · obtain ⟨pid, pick, b, now, ws, r, rfl, x, ls, k, hp⟩ := hcommit
    obtain ⟨-, -, hdb⟩ := atCommit_step h ⟨x, ls, k, hp⟩ hs
    have hof : commitsOf s (.step pid pick) =
        (ws.filterMap newPaymentEvent?).map fun e => ⟨now, e⟩ := by
      simp only [commitsOf, hp]
    rw [hof]
    constructor
    · rw [hdb, paymentEvents_applyAll, List.map_map, Function.comp_def, List.map_id']
    · intro c hc
      obtain ⟨e, he, rfl⟩ := List.mem_map.mp hc
      exact ((paymentEvents_inserted h).open_rows pid x b _ k hp e he).given
  · have hnone : commitsOf s a = [] := by
      unfold commitsOf
      cases a with
      | step pid pick =>
        simp only
        split
        · rename_i hp
          exact absurd ⟨pid, pick, _, _, _, _, rfl, _, _, _, hp⟩ hcommit
        · rfl
      | _ => rfl
    rw [hnone]
    rcases step_commit h hs with hdb | ⟨pid, pick, b, now, ws, r, rfl, hat, -⟩
    · simp [hdb]
    · exact absurd ⟨pid, pick, b, now, ws, r, rfl, hat⟩ hcommit

/-- **A run** likewise. -/
theorem commits_run : ∀ {as : List (Action (Start P) Pick)} {s s' : State P}, Reachable P s →
    (payflow P).run s as = some s' →
    s'.db.paymentEvents = s.db.paymentEvents ++ (commits s as).map (·.event) ∧
      ∀ c ∈ commits s as, c.event.createdAt = c.started
  | [], s, s', _, hrun => by
    obtain rfl := Option.some.inj hrun
    simp [commits]
  | a :: as, s, s', h, hrun => by
    obtain ⟨s₁, hs, hrun⟩ := Machine.run_cons hrun
    obtain ⟨hstep, hstarted⟩ := commitsOf_step h hs
    obtain ⟨hrest, hstarted'⟩ := commits_run (h.step trivial hs) hrun
    have hcommits : commits s (a :: as) = commitsOf s a ++ commits s₁ as := by
      simp only [commits, hs]
    rw [hcommits]
    constructor
    · rw [hrest, hstep, List.map_append, List.append_assoc]
    · intro c hc
      rcases List.mem_append.mp hc with hc | hc
      · exact hstarted c hc
      · exact hstarted' c hc

theorem payment_of_event (h : Reachable P s) :
    ∀ e ∈ s.db.paymentEvents, ∃ row, s.db.payment? e.paymentId = some row := by
  refine db_invariant (I := fun D => ∀ e ∈ D.paymentEvents, ∃ row,
    D.payment? e.paymentId = some row)
    (by simp [Db.empty]) (fun {b now D ws r} hi hreq hdoes _ hI e he => ?_) (reachableWhen_true h)
  rw [paymentEvents_applyAll] at he
  rcases List.mem_append.mp he with he | he
  · obtain ⟨row, hrow⟩ := hI e he
    obtain ⟨row', hrow', -⟩ := (keep_of_does hi hreq hdoes).2.payment hrow
    exact ⟨row', hrow'⟩
  · have hbooked := booked_of_does hdoes e.paymentId
    have hmem : e ∈ (ws.filterMap newPaymentEvent?).filter fun e' => e'.paymentId = e.paymentId :=
      List.mem_filter.mpr ⟨he, by simp⟩
    generalize (ws.filterMap newPaymentEvent?).filter (fun e' => e'.paymentId = e.paymentId) = es
      at hbooked hmem
    generalize ws.filterMap newOutboxEvent? = os at hbooked
    generalize D.payment? e.paymentId = before at hbooked
    generalize (store.applyAll D ws).payment? e.paymentId = after at hbooked ⊢
    cases hbooked with
    | untouched | released => cases hmem
    | created | noted | moved => exact ⟨_, rfl⟩

theorem startedInOrder_iff {cs : List EventCommit} (h : ∀ c ∈ cs, c.event.createdAt = c.started) :
    StartedInOrder cs ↔ (cs.map (·.event)).Pairwise fun e e' =>
      e.paymentId = e'.paymentId → e.createdAt < e'.createdAt := by
  rw [List.pairwise_map]
  refine List.Pairwise.iff_of_mem fun {c c'} hc hc' => ?_
  rw [h c hc, h c' hc']

/-- **Main result.** After every run, the events of every payment are shown in the order of their
commits if and only if their transactions have started in that order. -/
theorem shown_in_order_iff (h : (payflow P).run (init P) as = some s) :
    ShownInOrder as s ↔ StartedInOrder (commits (init P) as) := by
  have hr : Reachable P s := .run h
  obtain ⟨htable, hstarted⟩ := commits_run .refl h
  have htable : s.db.paymentEvents = (commits (init P) as).map (·.event) := htable
  rw [startedInOrder_iff hstarted, ← htable, ← pairwise_groups_iff]
  unfold ShownInOrder
  rw [← htable]
  constructor
  · intro hshown p
    have hids : ((s.db.paymentEvents.filter fun e => e.paymentId = p).map (·.id)).Nodup :=
      (paymentEvents_inserted hr).keys.sublist (List.filter_sublist.map _)
    refine (insertionSort_every_tie_iff hids).mp fun tie => ?_
    by_cases hempty : s.db.paymentEvents.filter (fun e => e.paymentId = p) = []
    · rw [hempty]
      rfl
    · obtain ⟨e, he⟩ := List.exists_mem_of_ne_nil _ hempty
      obtain ⟨hmem, hp⟩ := List.mem_filter.mp he
      obtain rfl := of_decide_eq_true hp
      obtain ⟨row, hrow⟩ := payment_of_event hr e hmem
      refine hshown tie s e.paymentId row.merchantId _ hr .refl ?_
      unfold retrievePaymentEvents
      rw [hrow, Option.filter_some, if_pos (decide_eq_true rfl)]
  · intro hpair tie s₁ p m events _ _ hevents
    unfold retrievePaymentEvents at hevents
    split at hevents
    · cases hevents
    · obtain rfl := Except.ok.inj hevents
      exact insertionSort_of_increasing (hpair p) tie

/-! ### Two runs -/

/-- A payment that succeeds, while time passes. -/
def slowPayment : List Act :=
  createPaymentScript 0 1 ++ [.tick 1] ++ startPaymentScript 1 0 4 ++ [.tick 1] ++ payScript 1 6

theorem shown_in_order_slowPayment : ∃ s : State examplePlatform,
    (payflow examplePlatform).run (init _) slowPayment = some s ∧ ShownInOrder slowPayment s := by
  have h : ((payflow examplePlatform).run (init _) slowPayment).isSome = true := by decide +kernel
  obtain ⟨s, hs⟩ := Option.isSome_iff_exists.mp h
  exact ⟨s, hs, (shown_in_order_iff hs).mpr (by decide +kernel)⟩

/-- The provider has accepted the payment. -/
def acceptedAnswer : Act :=
  .step 1 (.http (.response 200 "" (.ok (.obj
    [("status", .str "PROCESSING"), ("provider_payment_id", .str "provider_1")]))))

/-- The webhook of the payment begins its transaction and inserts its event. Before it asks for the
lock, `record_awaiting_webhook` begins and commits. -/
def overtakenWebhook : List Act :=
  createPaymentScript 0 1 ++ startPaymentScript 1 0 4 ++ [.tick 1] ++
    [.start (.receiveProviderWebhook exampleWebhook)] ++ quiet 2 1 ++ draw 2 [7] ++ [.tick 1] ++
    [acceptedAnswer] ++ quiet 1 3 ++ draw 1 [20] ++ quiet 1 1 ++
    quiet 2 2 ++ draw 2 [8, 9] ++ quiet 2 2

/-- What is shown of the payment 1, and its events in the order of their commits. -/
def shownTypes (s : State P) : Option (List EventType) × List EventType :=
  ((retrievePaymentEvents (fun _ => 0) s.db s.db (exampleUuid 1) "demo-merchant").toOption.map
    fun events => events.map (·.eventType),
    (s.db.paymentEvents.filter fun e => e.paymentId = exampleUuid 1).map (·.eventType))

/-- **A webhook that is overtaken.** `PAYMENT_SUCCEEDED` is shown before `PAYMENT_AWAITING_WEBHOOK`,
which was committed first. -/
theorem shown_in_order_fails : ∃ s : State examplePlatform,
    (payflow examplePlatform).run (init _) overtakenWebhook = some s ∧
      ¬ ShownInOrder overtakenWebhook s := by
  have h : ((payflow examplePlatform).run (init _) overtakenWebhook).map shownTypes =
      some (some [.paymentCreated, .paymentProcessing, .paymentSucceeded, .paymentAwaitingWebhook],
        [.paymentCreated, .paymentProcessing, .paymentAwaitingWebhook, .paymentSucceeded]) := by
    decide +kernel
  obtain ⟨s, hs, h⟩ := Option.map_eq_some_iff.mp h
  obtain ⟨hshown, hcommitted⟩ := Prod.mk.inj h
  refine ⟨s, hs, fun hin => ?_⟩
  have hr : Reachable examplePlatform s := .run hs
  have htable : s.db.paymentEvents =
      (commits (init examplePlatform) overtakenWebhook).map (·.event) :=
    (commits_run .refl hs).1
  obtain ⟨events, hevents, htypes⟩ := Option.map_eq_some_iff.mp hshown
  cases hretrieved : retrievePaymentEvents (fun _ =>
    0) s.db s.db (exampleUuid 1) "demo-merchant" with
  | error e =>
    rw [hretrieved] at hevents
    cases hevents
  | ok events' =>
    rw [hretrieved] at hevents
    obtain rfl := Option.some.inj hevents
    have horder := hin _ s _ _ _ hr .refl hretrieved
    rw [← htable] at horder
    rw [horder, hcommitted] at htypes
    revert htypes
    decide

end Payflow.Safety
