import Payflow.Lib.Removal
import Payflow.Spec.Delivery
import Payflow.Spec.JsonReader

/-! # Webhook deliveries

Once a delivery of an event has been answered 200 the event is recorded, and no delivery of the same
event changes anything any more, whatever its body and however long it has been waiting. A delivery
that fails has changed nothing, and leaves no record behind. So the copies of an event that has been
answered can be taken out of a run: it goes the same way without them. -/

namespace Payflow.Safety

open Payflow.Lib Payflow.Model Payflow.Spec

variable {P : Platform} {s s' : State P} {t : String}

/-- A delivery of the event has been answered 200. -/
def EventAnswered (s : State P) (t : String) : Prop :=
  ∃ (i : ℕ) (call : ReceiveWebhook) (a : WebhookAnswer), Carries P call t ∧
    s.procs[i]? = some ⟨.receiveProviderWebhook call, .done (.ok (.webhook a))⟩

/-- The process is a delivery of the event. -/
def Delivers (s : State P) (i : ℕ) (t : String) : Prop :=
  ∃ call st, Carries P call t ∧ s.procs[i]? = some ⟨.receiveProviderWebhook call, st⟩

/-! ### Once answered, nothing changes -/

theorem recorded_of_answered (h : Reachable P s) (ha : EventAnswered s t) : Recorded s.db t := by
  obtain ⟨i, call, a, hc, hp⟩ := ha
  cases stage_of_reachable h hp with
  | answered hc' hr => exact hc.unique hc' ▸ hr

theorem recorded_later (h : Reachable P s) (hr : Recorded s.db t)
    (h' : Machine.Reachable (payflow P) s s') : Recorded s'.db t := by
  induction h' with
  | refl => exact hr
  | step h₁ _ hs ih => exact ih.mono (webhookEvents_step (h.trans h₁) hs)

theorem delivery_of_recorded (h : Reachable P s) (hr : Recorded s.db t) {i : ℕ} {pick : Pick}
    (hd : Delivers s i t) (hs : (payflow P).step s (.step i pick) = some s') : s'.db = s.db := by
  rcases step_commit h hs with hdb | ⟨j, pick', b, now, ws, r, ha, hc, -, hdoes, hdb⟩
  · exact hdb
  obtain ⟨rfl, -⟩ := Action.step.inj ha
  obtain ⟨call, st, hcarries, hp⟩ := hd
  obtain ⟨x, ls, k, hp'⟩ := hc
  obtain ⟨rfl, rfl⟩ := Machine.Proc.mk.inj (Option.some.inj (hp.symm.trans hp'))
  obtain ⟨payload, rfl, hload⟩ := stage_txn (stage_of_reachable h hp')
  rcases hdoes with ⟨-, -, rfl⟩ | ⟨w, -, -, -, -, -, hrow, hnew, -⟩
  · exact hdb
  obtain ⟨eventId, type, hitem, htext, -⟩ := hrow
  obtain ⟨w', hw', ht⟩ := hr
  have hsame := hcarries.unique ⟨payload, eventId, hload, hitem, htext⟩
  have hne := List.all_eq_true.mp hnew w' hw'
  simp [ht, hsame] at hne

/-! ### What fails changes nothing -/

/-- A delivery that has failed has not changed the database in any of its steps. -/
theorem failed_unchanged {s₁ s₂ : State P} (h : Reachable P s) {i : ℕ} {pick : Pick}
    (hs : (payflow P).step s (.step i pick) = some s₁) (h' : Machine.Reachable (payflow P) s₁ s₂)
    {call : ReceiveWebhook} {e : Exn}
    (hp : s₂.procs[i]? = some ⟨.receiveProviderWebhook call, .done (.error e)⟩) : s₁.db = s.db := by
  obtain ⟨x, st, st', hp₀, hp₁, hadv⟩ := Machine.step_own hs
  have hx : x = .receiveProviderWebhook call := by
    obtain ⟨st₂, hp₂, -⟩ := h'.stays (T := fun _ => True) (fun _ _ => trivial) trivial hp₁ trivial
    rw [hp] at hp₂
    exact (Machine.Proc.mk.inj (Option.some.inj hp₂)).1.symm
  subst hx
  rcases replied_of_advance (stage_of_reachable h hp₀) hadv with hdb | hreplied
  · exact hdb
  obtain ⟨st₂, hp₂, hreplied⟩ := h'.stays Replied.advance (Or.inr (Or.inr rfl)) hp₁ hreplied
  rw [hp] at hp₂
  obtain ⟨-, rfl⟩ := Machine.Proc.mk.inj (Option.some.inj hp₂)
  rcases hreplied with ⟨a, ha⟩ | ⟨a, ha⟩ | ha <;> cases ha

theorem replied_of_recorded (h : Reachable P s) (hr : Recorded s.db t) : ∃ (i : ℕ)
    (call : ReceiveWebhook)
    (st : Status Write Lock Stmt Block Ext Exn Ans SRes BRes ERes), Carries P call t ∧
      s.procs[i]? = some ⟨.receiveProviderWebhook call, st⟩ ∧ Replied st := by
  induction h with
  | refl => simp [Recorded, init, Db.empty] at hr
  | @step s s' a h _ hs ih =>
    by_cases hold : Recorded s.db t
    · obtain ⟨i, call, st, hc, hp, hreplied⟩ := ih hold
      have hone : Machine.Reachable (payflow P) s s' := .step .refl trivial hs
      obtain ⟨st', hp', hreplied'⟩ := hone.stays Replied.advance (Or.inr (Or.inr rfl)) hp hreplied
      exact ⟨i, call, st', hc, hp', hreplied'⟩
    rcases step_commit h hs with hdb | ⟨i, pick, b, now, ws, r, rfl, hc, -, hdoes, hdb⟩
    · exact absurd (hdb ▸ hr) hold
    -- the new row is that of a delivery, which commits now
    obtain ⟨w, hw, ht⟩ := hr
    rw [hdb, webhookEvents_applyAll, List.mem_append] at hw
    rcases hw with hw | hw
    · exact absurd ⟨w, hw, ht⟩ hold
    obtain ⟨v, hv, hnew⟩ := List.mem_filterMap.mp hw
    have hins : .insertWebhookEvent w ∈ ws := by
      cases v <;> simp_all [newWebhookEvent?]
    obtain ⟨payload, rfl, eventId, type, hitem, htext, -⟩ := webhookRow_of_does hdoes hins
    obtain ⟨x, ls, k, hp⟩ := hc
    obtain ⟨call, rfl⟩ := delivery_of_operations (operates_txn h hp)
    obtain ⟨payload', hb, hload⟩ := stage_txn (stage_of_reachable h hp)
    obtain rfl := Block.receiveProviderWebhook.inj hb
    obtain ⟨x, st, st', hp₀, hp₁, hadv⟩ := Machine.step_own hs
    obtain ⟨rfl, -⟩ := Machine.Proc.mk.inj (Option.some.inj (hp.symm.trans hp₀))
    refine ⟨i, call, st', ⟨payload, eventId, hload, hitem, ht ▸ htext⟩, hp₁, ?_⟩
    rcases replied_of_advance (stage_of_reachable h hp₀) hadv with hsame | hreplied
    · have hr' : w ∈ s'.db.webhookEvents := by
        rw [hdb, webhookEvents_applyAll]
        exact List.mem_append_right _ (List.mem_filterMap.mpr ⟨v, hv, hnew⟩)
      exact absurd ⟨w, hsame ▸ hr', ht⟩ hold
    · exact hreplied

/-! ### Runs without the copies -/

/-- The messages, with new numbers for the processes that have sent them. -/
def renumber (f : ℕ → ℕ) (w : World) : World :=
  ⟨w.messages.map fun m => { m with sender := f m.sender }⟩

theorem renumbers (f : ℕ → ℕ) : Machine.Renumbers (payflow P) f (renumber f) where
  start := by
    intro w x
    cases x with
    | task i =>
      show start P (renumber f w) (.task i) = start P w (.task i)
      have hget : (renumber f w).messages[i]? =
          (w.messages[i]?).map fun m => { m with sender := f m.sender } := List.getElem?_map
      simp only [start, hget]
      cases w.messages[i]? <;> rfl
    | _ => rfl
  ext := by
    intro pid pick w e w' r h
    have h : ext pid pick w e = some (r, w') := h
    show ext (f pid) pick (renumber f w) e = some (r, renumber f w')
    cases e with
    | delay task | sendRetry task retries =>
      simp only [ext] at h ⊢
      split at h
      · obtain ⟨rfl, rfl⟩ := Prod.mk.inj (Option.some.inj h)
        simp [renumber]
      · obtain ⟨rfl, rfl⟩ := Prod.mk.inj (Option.some.inj h)
        rfl
      · simp at h
    | _ =>
      simp only [ext] at h ⊢
      split at h
      · obtain ⟨rfl, rfl⟩ := Prod.mk.inj (Option.some.inj h)
        rfl
      · simp at h
  finish := by
    intro x out w
    cases x with
    | task i =>
      show finish P (.task i) out (renumber f w) = renumber f (finish P (.task i) out w)
      simp only [finish, renumber, World.mk.injEq]
      refine List.ext_getElem? fun j => ?_
      simp only [List.getElem?_modify, List.getElem?_map]
      by_cases hj : i = j <;> simp [hj, Function.comp_def]
    | _ => rfl

theorem exists_message_of_finish (x : Start P) (out : Except Exn Ans) {w : World} {m : Message}
    (h : m ∈ (finish P x out w).messages) : ∃ m' ∈ w.messages, m'.sender = m.sender := by
  cases x with
  | task i =>
    have h : m ∈ w.messages.modify i fun m => { m with acked := true } := h
    obtain ⟨j, hj⟩ := List.mem_iff_getElem?.mp h
    rw [List.getElem?_modify] at hj
    obtain ⟨m', hm', rfl⟩ := Option.map_eq_some_iff.mp hj
    refine ⟨m', List.mem_of_getElem? hm', ?_⟩
    split_ifs <;> rfl
  | _ => exact ⟨m, h, rfl⟩

theorem senders_lt (h : Reachable P s) : ∀ m ∈ s.world.messages, m.sender < s.procs.length := by
  have hinv := Machine.ReachableBy.invariant (fulfils P)
    (P := fun s : State P => ∀ m ∈ s.world.messages, m.sender < s.procs.length)
    (C := fun _ _ => True) (good_init P) (by simp [init]) (fun {s ev s'} hI _ hs => ?_)
    (h.imp fun _ _ _ _ _ => trivial)
  · simpa [Machine.erase] using hinv
  have hset : ∀ {i p}, (s.procs.set i p).length = s.procs.length := List.length_set
  cases hs with
  | start hp =>
    intro m hm
    have := hI m hm
    simp
    omega
  | @ext pid pick x e k w r hp hx =>
    have hpid := (List.getElem?_eq_some_iff.mp hp).1
    intro m hm
    rw [hset]
    rcases ext_cases hx with rfl | ⟨task, retries, -, rfl⟩
    · exact hI m hm
    · rcases List.mem_append.mp hm with hm | hm
      · exact hI m hm
      · obtain rfl := List.mem_singleton.mp hm
        exact hpid
  | @finishOk pid x a hp =>
    intro m hm
    obtain ⟨m', hm', hsender⟩ := exists_message_of_finish x (.ok a) hm
    rw [hset, ← hsender]
    exact hI m' hm'
  | @finishError pid x e hp =>
    intro m hm
    obtain ⟨m', hm', hsender⟩ := exists_message_of_finish x (.error e) hm
    rw [hset, ← hsender]
    exact hI m' hm'
  | commit hp => simpa using hI
  | rollback hp => simpa using hI
  | kill hp => simpa using hI
  | tick => exact hI

/-- The state without the processes that `copy` marks. -/
def without (copy : ℕ → Bool) (s : State P) : State P :=
  Machine.keepState (fun i => !copy i) (renumber (rank fun i => !copy i)) s

/-- The run without them, from where there are `n` processes. -/
def runWithout (copy : ℕ → Bool) (n : ℕ) (as : List (Action (Start P) Pick)) :
    List (Action (Start P) Pick) :=
  Machine.keepRun (fun i => !copy i) n as

theorem without_of_none (h : Reachable P s) {copy : ℕ → Bool}
    (hcopy : ∀ i < s.procs.length, copy i = false) : without copy s = s := by
  have hkeep : ∀ i < s.procs.length, (!copy i) = true := fun i hi => by simp [hcopy i hi]
  have hworld : renumber (rank fun i => !copy i) s.world = s.world := by
    have hsame : ∀ m ∈ s.world.messages,
        ({ m with sender := rank (fun i => !copy i) m.sender } : Message) = m := fun m hm => by
      rw [rank_of_all hkeep (Nat.le_of_lt (senders_lt h m hm))]
    exact congrArg World.mk ((List.map_congr_left hsame).trans (List.map_id' _))
  unfold without Machine.keepState
  rw [keepAt_of_all hkeep, hworld]

/-- The marked processes are deliveries of `t`, and have no locks. -/
structure Copies (copy : ℕ → Bool) (t : String) (s : State P) : Prop where
  reachable : Reachable P s
  recorded : Recorded s.db t
  unlocked : ∀ (i : ℕ) call st, copy i = true →
    s.procs[i]? = some ⟨.receiveProviderWebhook call, st⟩ →
    Carries P call t → st.locks = []

theorem copies_step {copy : ℕ → Bool} {a : Action (Start P) Pick} (h : Copies copy t s)
    (hs : (payflow P).step s a = some s') : Copies copy t s' where
  reachable := .step h.reachable trivial hs
  recorded := h.recorded.mono (webhookEvents_step h.reachable hs)
  unlocked := by
    intro i call st hi hp hc
    cases Machine.step_process hs hp with
    | own _ hp hadv =>
      exact (silent_advance (stage_of_reachable h.reachable hp) hc h.recorded
        (h.unlocked i call _ hi hp hc) hadv).2.2
    | other hp => exact h.unlocked i call _ hi hp hc
    | killed _ _ => rfl
    | started _ _ _ => rfl

/-- **A run without the copies** of an event that has been answered. -/
theorem run_without (h : Reachable P s) (hr : Recorded s.db t) {copy : ℕ → Bool}
    {as : List (Action (Start P) Pick)} (hnew : ∀ i < s.procs.length, copy i = false)
    (hcopy : ∀ i < s'.procs.length, copy i = true → Delivers s' i t)
    (hs : (payflow P).run s as = some s') :
    (payflow P).run s (runWithout copy s.procs.length as) = some (without copy s') := by
  have hcopies : Copies copy t s := by
    refine ⟨h, hr, fun i call st hi hp _ => ?_⟩
    have hlt := (List.getElem?_eq_some_iff.mp hp).1
    simp [hnew i hlt] at hi
  have hrun := Machine.run_keepRun (fun i => !copy i) (J := Copies copy t) (renumbers _) copies_step
    (fun {s₀ i pick s₁ bs} h₀ hk hs₁ hrest => ?_) hcopies hs
  · rwa [show Machine.keepState _ _ s = s from without_of_none h hnew] at hrun
  -- the process is a delivery of the event, since it is one in the end
  obtain ⟨x, st, st', hp₀, hp₁, hadv⟩ := Machine.step_own hs₁
  have hlater : Machine.Reachable (payflow P) s₁ s' := .runWhen (fun _ _ _ => trivial) .refl hrest
  obtain ⟨st₂, hp₂, -⟩ := hlater.stays (T := fun _ => True) (fun _ _ => trivial) trivial hp₁ trivial
  have hi : copy i = true := by simpa using hk
  obtain ⟨call, st₃, hc, hp₃⟩ := hcopy i (List.getElem?_eq_some_iff.mp hp₂).1 hi
  obtain ⟨rfl, -⟩ := Machine.Proc.mk.inj (Option.some.inj (hp₃.symm.trans hp₂))
  obtain ⟨hdb, hw, -⟩ := silent_advance (stage_of_reachable h₀.reachable hp₀) hc h₀.recorded
    (h₀.unlocked i call st hi hp₀ hc) hadv
  exact ⟨hdb, hw⟩

/-! ### The result -/

/-- What is promised of the deliveries of webhooks, from the state `s` on. -/
structure WebhooksIdempotent (s : State P) : Prop where
  /-- An event that has been answered 200 changes no table any more. -/
  once : ∀ t s₁ s₂ (i : ℕ) pick, EventAnswered s t → Machine.Reachable (payflow P) s s₁ →
    Delivers s₁ i t → (payflow P).step s₁ (.step i pick) = some s₂ → s₂.db = s₁.db
  /-- No step of a delivery that fails has changed a table. -/
  failed : ∀ s₁ s₂ (i : ℕ) pick call e, (payflow P).step s (.step i pick) = some s₁ →
    Machine.Reachable (payflow P) s₁ s₂ →
    s₂.procs[i]? = some ⟨.receiveProviderWebhook call, .done (.error e)⟩ → s₁.db = s.db
  /-- An event is not recorded where all its deliveries have failed. -/
  first : ∀ t, (∀ (i : ℕ) call st, Carries P call t →
    s.procs[i]? = some ⟨.receiveProviderWebhook call, st⟩ → ∃ e, st = .done (.error e)) →
    ¬ Recorded s.db t
  /-- The copies of an event that has been answered can be left out. -/
  copies : ∀ t copy as s', EventAnswered s t → (payflow P).run s as = some s' →
    (∀ i < s.procs.length, copy i = false) →
    (∀ i < s'.procs.length, copy i = true → Delivers s' i t) →
    (payflow P).run s (runWithout copy s.procs.length as) = some (without copy s') ∧
      (without copy s').db = s'.db

/-- **Webhook deliveries are idempotent and all-or-nothing.** -/
theorem webhooks_idempotent (h : Reachable P s) : WebhooksIdempotent s where
  once t s₁ s₂ i pick ha h' hd hs :=
    delivery_of_recorded (h.trans h') (recorded_later h (recorded_of_answered h ha) h') hd hs
  failed s₁ s₂ i pick call e hs h' hp := failed_unchanged h hs h' hp
  first := by
    intro t hall hr
    obtain ⟨i, call, st, hc, hp, hreplied⟩ := replied_of_recorded h hr
    obtain ⟨e, rfl⟩ := hall i call st hc hp
    rcases hreplied with ⟨a, ha⟩ | ⟨a, ha⟩ | ha <;> cases ha
  copies t copy as s' ha hs hnew hcopy :=
    ⟨run_without h (recorded_of_answered h ha) hnew hcopy hs, rfl⟩

/-! ### A run -/

/-- A payment that is processed, and the delivery of its event. -/
def oneDelivery : List Act :=
  createPaymentScript 0 1 ++ startPaymentScript 1 0 4 ++
    [.start (.receiveProviderWebhook exampleWebhook)] ++ quiet 2 1 ++ draw 2 [7] ++ quiet 2 2 ++
    draw 2 [8, 9] ++ quiet 2 2

/-- The event is delivered again. -/
def repeatedDelivery : List Act :=
  [.start (.receiveProviderWebhook exampleWebhook)] ++ quiet 3 1 ++ draw 3 [10] ++ quiet 3 2

theorem exampleWebhook_carries : Carries examplePlatform exampleWebhook "event_1" := by
  have hload := loadsBytes_webhookText "event_1" (exampleUuid 1) "provider_1"
  refine ⟨webhookPayload "event_1" (exampleUuid 1) "provider_1", .str "event_1", ?_, rfl, rfl⟩
  simpa only [examplePlatform, exampleWebhook] using hload

/-- The process has answered the event with 200. -/
def answersExample (s : State P) (i : ℕ) : Bool :=
  match s.procs[i]? with
  | some ⟨.receiveProviderWebhook call, .done (.ok (.webhook _))⟩ =>
    call.rawBody = exampleWebhook.rawBody
  | _ => false

theorem procs_of_answersExample {s : State examplePlatform} {i : ℕ}
    (h : answersExample s i = true) : ∃ call a, Carries examplePlatform call "event_1" ∧
      s.procs[i]? = some ⟨.receiveProviderWebhook call, .done (.ok (.webhook a))⟩ := by
  unfold answersExample at h
  split at h
  · rename_i call a hp
    have hbody : call.rawBody = exampleWebhook.rawBody := of_decide_eq_true h
    obtain ⟨payload, eventId, hload, htext⟩ := exampleWebhook_carries
    rw [← hbody] at hload
    exact ⟨call, a, ⟨payload, eventId, hload, htext⟩, hp⟩
  · cases h

/-- A second delivery of an event changes nothing. -/
theorem webhooks_idempotent_repeated : ∃ s s' : State examplePlatform,
    EventAnswered s "event_1" ∧ (payflow examplePlatform).run s repeatedDelivery = some s' ∧
      EventAnswered s' "event_1" ∧ s'.db = s.db ∧ WebhooksIdempotent s := by
  have h : ((payflow examplePlatform).run (init _) oneDelivery).bind (fun s =>
      ((payflow examplePlatform).run s repeatedDelivery).map fun s' =>
        (answersExample s 2, s.procs.length, answersExample s' 3, s'.procs.length)) =
      some (true, 3, true, 4) := by
    decide +kernel
  obtain ⟨s, hs, h⟩ := Option.bind_eq_some_iff.mp h
  obtain ⟨s', hs', h⟩ := Option.map_eq_some_iff.mp h
  simp only [Prod.mk.injEq] at h
  obtain ⟨hfirst, hlength, hsecond, hlength'⟩ := h
  obtain ⟨call, a, hc, hp⟩ := procs_of_answersExample hfirst
  obtain ⟨call', a', hc', hp'⟩ := procs_of_answersExample hsecond
  have hidem : WebhooksIdempotent s := webhooks_idempotent (.run hs)
  have hanswered : EventAnswered s "event_1" := ⟨2, call, a, hc, hp⟩
  -- without the second delivery nothing is left to do
  obtain ⟨hrun, hdb⟩ := hidem.copies "event_1" (fun i => i = 3) repeatedDelivery s' hanswered hs'
    (fun i hi => by simp; omega)
    (fun i hi hcopy => ⟨call', _, hc', by simpa [of_decide_eq_true hcopy] using hp'⟩)
  rw [hlength] at hrun
  have hsame : s = without (fun i => i = 3) s' := Option.some.inj hrun
  exact ⟨s, s', hanswered, hs', ⟨3, call', a', hc', hp'⟩, by rw [← hdb, ← hsame], hidem⟩

end Payflow.Safety
