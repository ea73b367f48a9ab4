import Payflow.Safety.RetryAttempts

/-! # The bookkeeping of the retries

A task that is worked on again and again, by one worker at a time, until no message of it is left.
Every attempt whose request to the provider has a transient outcome is counted in the row and in its
history, but the last one, when the retries are exhausted, is counted too although no retry follows
it. -/

namespace Payflow.Safety

open Payflow.Lib Payflow.Model Payflow.Spec

/-! ### The messages -/

/-- The messages that the action sends. -/
def sentBy (pid : ℕ) : Sigma ERes → List Message
  | ⟨.delay task, (sent : Bool)⟩ => if sent then [⟨task, 0, pid, false⟩] else []
  | ⟨.sendRetry task retries, (sent : Bool)⟩ => if sent then [⟨task, retries, pid, false⟩] else []
  | _ => []

theorem messages_ext {pid : ℕ} {pick : Pick} {w w' : World} {e : Ext} {r : ERes e}
    (h : ext pid pick w e = some (r, w')) : w'.messages = w.messages ++ sentBy pid ⟨e, r⟩ := by
  cases e with
  | delay task | sendRetry task retries =>
    simp only [ext] at h
    split at h
    · obtain ⟨rfl, rfl⟩ := Prod.mk.inj (Option.some.inj h)
      rfl
    · obtain ⟨rfl, rfl⟩ := Prod.mk.inj (Option.some.inj h)
      exact (List.append_nil _).symm
    · cases h
  | _ =>
    simp only [ext] at h
    split at h
    · obtain ⟨-, rfl⟩ := Prod.mk.inj (Option.some.inj h)
      exact (List.append_nil _).symm
    · cases h

theorem run_ne_done {p : Proc Ans} (out : Except Exn Ans) :
    (.run p : Status Write Lock Stmt Block Ext Exn Ans SRes BRes ERes) ≠ .done out :=
  fun h => by cases h

theorem traced_messages {P : Platform} {m pid i : ℕ} {s₁ s : Machine.State (payflowUpTo m P)}
    {tr : List (Sigma ERes)} {p : Proc Ans} (h : Machine.Traced (payflowUpTo m P) pid s₁ tr s)
    (hp : s₁.procs[pid]? = some ⟨.task i, .run p⟩) :
    ∃ st, s.procs[pid]? = some ⟨.task i, st⟩ ∧
      (((∀ out, st ≠ .done out) ∧
        s.world.messages = s₁.world.messages ++ tr.flatMap (sentBy pid)) ∨
      ((∃ out, st = .done out) ∧ s.world.messages =
        (s₁.world.messages ++ tr.flatMap (sentBy pid)).modify i fun m =>
          { m with acked := true })) := by
  induction h with
  | refl => exact ⟨_, hp, Or.inl ⟨run_ne_done, by simp⟩⟩
  | tick d _ ih => exact ih
  | quiet _ hev hs ih =>
    obtain ⟨st, hst, hw⟩ := ih
    obtain ⟨y, st₁, st', hp₁, hp', hadv⟩ := Machine.step_own hs
    obtain ⟨rfl, rfl⟩ := Machine.Proc.mk.inj (Option.some.inj (hst.symm.trans hp₁))
    refine ⟨st', hp', ?_⟩
    rcases hw with ⟨-, hw⟩ | ⟨⟨out, rfl⟩, -⟩
    · rcases Machine.advance_world (fun e k he => hev _ e k (he ▸ hst)) hadv with
        ⟨out, rfl, hworld⟩ | ⟨hopen, hworld⟩
      · refine Or.inr ⟨⟨out, rfl⟩, ?_⟩
        rw [hworld, ← hw]
        rfl
      · exact Or.inl ⟨hopen, hworld ▸ hw⟩
    · simp [Machine.advance] at hadv
  | ext _ hext hx hs ih =>
    obtain ⟨st, hst, hw⟩ := ih
    obtain ⟨y, st₁, st', hp₁, hp', hadv⟩ := Machine.step_own hs
    obtain ⟨rfl, rfl⟩ := Machine.Proc.mk.inj (Option.some.inj (hst.symm.trans hp₁))
    obtain ⟨-, rfl⟩ := Machine.Proc.mk.inj (Option.some.inj (hst.symm.trans hext))
    simp only [Machine.advance, hx, Option.some.injEq, Prod.mk.injEq] at hadv
    obtain ⟨-, hworld, rfl⟩ := hadv
    rcases hw with ⟨-, hw⟩ | ⟨⟨out, he⟩, -⟩
    · refine ⟨_, hp', Or.inl ⟨run_ne_done, ?_⟩⟩
      rw [← hworld, messages_ext hx, hw, List.flatMap_append, ← List.append_assoc]
      simp
    · cases he

/-! ### The run -/

/-- The runs in which the messages of a task are worked on, one after the other, each alone and to
its end, with their external actions. -/
inductive Executions (P : Platform) (m : ℕ) (T : Task) (s₀ : Machine.State (payflowUpTo m P)) :
    List (Sigma ERes) → Machine.State (payflowUpTo m P) → Prop
  | refl : Executions P m T s₀ [] s₀
  | next {tr tr' s s₁ s' i retries sender out} : Executions P m T s₀ tr s →
      s.world.messages[i]? = some ⟨T, retries, sender, false⟩ →
      (payflowUpTo m P).step s (.start (.task i)) = some s₁ →
      Machine.Traced (payflowUpTo m P) s.procs.length s₁ tr' s' →
      s'.procs[s.procs.length]? = some ⟨.task i, .done out⟩ →
      (∀ a ∈ tr', ∀ outcome, outcome? a = some outcome → Genuine outcome) →
      Executions P m T s₀ (tr ++ tr') s'

/-- The task is about to be worked on for the first time: its row is as it was made, and it has one
message. -/
structure Begun (T : Task) {P : Platform} {m : ℕ} (s : Machine.State (payflowUpTo m P)) : Prop where
  created : Created s.db T
  counts : Counts s.db T 0
  message : ∃ i sender : ℕ, s.world.messages[i]? = some ⟨T, 0, sender, false⟩ ∧
    ∀ (j : ℕ) (msg : Message), s.world.messages[j]? = some msg → msg.task = T →
      msg.acked = false → j = i

/-- No message of the task is left. -/
def Over (T : Task) {P : Platform} {m : ℕ} (s : Machine.State (payflowUpTo m P)) : Prop :=
  ∀ (j : ℕ) (msg : Message), s.world.messages[j]? = some msg → msg.task = T → msg.acked = true

/-- The requests to the provider. -/
def calls (tr : List (Sigma ERes)) : ℕ := tr.countP fun a => (outcome? a).isSome

/-- Those with a transient outcome. -/
def transients (tr : List (Sigma ERes)) : ℕ :=
  tr.countP fun a =>
    match outcome? a with
    | some out => isTransient out
    | none => false

/-- The action is a retry that the broker takes, or does not take. -/
def sendsRetry (taken : Bool) : Sigma ERes → Bool
  | ⟨.sendRetry _ _, (sent : Bool)⟩ => sent == taken
  | _ => false

/-- The retries that are scheduled. -/
def scheduled (tr : List (Sigma ERes)) : ℕ := tr.countP (sendsRetry true)

/-- The retries that the broker refuses. -/
def refusedRetries (tr : List (Sigma ERes)) : ℕ := tr.countP (sendsRetry false)

/-- The two counters are equal to the number of the retries that were scheduled, and the provider
was asked at most `m + 1` times. -/
def Bookkept (m : ℕ) (T : Task) (tr : List (Sigma ERes)) (D : Db) : Prop :=
  Counts D T (scheduled tr) ∧ calls tr ≤ m + 1

/-- How far a run has come. -/
inductive Progress {P : Platform} (m : ℕ) (T : Task) (tr : List (Sigma ERes))
    (s : Machine.State (payflowUpTo m P)) : Prop
  | waiting {i n sender : ℕ} : s.world.messages[i]? = some ⟨T, n, sender, false⟩ →
      (∀ (j : ℕ) (msg : Message), s.world.messages[j]? = some msg → msg.task = T →
        msg.acked = false →
        j = i) → n ≤ m → Counts s.db T n → Created s.db T ∨ Processing s.db T →
      calls tr = n → transients tr = n → scheduled tr = n → refusedRetries tr = 0 →
        Progress m T tr s
  | acked {n} : Over T s → Counts s.db T n → transients tr = n → calls tr ≤ m + 1 →
      (n ≤ m ∧ n = scheduled tr + refusedRetries tr) ∨
        (n = m + 1 ∧ scheduled tr = m ∧ refusedRetries tr = 0) →
      Progress m T tr s

theorem sentBy_request {pid : ℕ} {a : Sigma ERes} {out : HttpOutcome} (h : outcome? a = some out) :
    sentBy pid a = [] := by
  obtain ⟨e, r⟩ := a
  cases e <;> first | rfl | cases h

theorem sendsRetry_request {taken : Bool} {a : Sigma ERes} {out : HttpOutcome}
    (h : outcome? a = some out) : sendsRetry taken a = false := by
  obtain ⟨e, r⟩ := a
  cases e <;> first | rfl | cases h

theorem acked_cases {l : List Message} {i j : ℕ} {msg : Message}
    (h : (l.modify i fun msg => { msg with acked := true })[j]? = some msg) :
    (j = i ∧ msg.acked = true) ∨ (j ≠ i ∧ l[j]? = some msg) := by
  rw [List.getElem?_modify] at h
  obtain ⟨old, hold, he⟩ := Option.map_eq_some_iff.mp h
  by_cases hij : i = j
  · refine Or.inl ⟨hij.symm, ?_⟩
    rw [if_pos hij] at he
    exact he ▸ rfl
  · rw [if_neg hij] at he
    exact Or.inr ⟨Ne.symm hij, he ▸ hold⟩

theorem tallies_append (tr tr' : List (Sigma ERes)) : calls (tr ++ tr') = calls tr + calls tr' ∧
    transients (tr ++ tr') = transients tr + transients tr' ∧
    scheduled (tr ++ tr') = scheduled tr + scheduled tr' ∧
    refusedRetries (tr ++ tr') = refusedRetries tr + refusedRetries tr' :=
  ⟨List.countP_append, List.countP_append, List.countP_append, List.countP_append⟩

theorem tallies_request {a : Sigma ERes} {out : HttpOutcome} (h : outcome? a = some out) :
    calls [a] = 1 ∧ transients [a] = (if isTransient out then 1 else 0) ∧ scheduled [a] = 0 ∧
      refusedRetries [a] = 0 := by
  refine ⟨?_, ?_, ?_, ?_⟩
  · simp [calls, h]
  · unfold transients
    rw [List.countP_singleton, h]
  · simp [scheduled, sendsRetry_request h]
  · simp [refusedRetries, sendsRetry_request h]

theorem tallies_pair {a : Sigma ERes} {out : HttpOutcome} (h : outcome? a = some out) (T : Task)
    (retries : ℕ) (taken : Bool) :
    calls [a, ⟨.sendRetry T retries, taken⟩] = 1 ∧
      transients [a, ⟨.sendRetry T retries, taken⟩] = (if isTransient out then 1 else 0) ∧
      scheduled [a, ⟨.sendRetry T retries, taken⟩] = (if taken then 1 else 0) ∧
      refusedRetries [a, ⟨.sendRetry T retries, taken⟩] = (if taken then 0 else 1) := by
  obtain ⟨h₁, h₂, h₃, h₄⟩ := tallies_append [a] [⟨.sendRetry T retries, taken⟩]
  obtain ⟨h₁', h₂', h₃', h₄'⟩ := tallies_request h
  simp only [List.singleton_append] at h₁ h₂ h₃ h₄
  rw [h₁, h₂, h₃, h₄, h₁', h₂', h₃', h₄']
  cases taken <;> exact ⟨rfl, rfl, rfl, rfl⟩

section run

variable {P : Platform} {m pid i n sender : ℕ} {T : Task}
  {s s₁ s' : Machine.State (payflowUpTo m P)} {tr tr' : List (Sigma ERes)} {out : Except Exn Ans}

theorem execution_ends (hmsg : s.world.messages[i]? = some ⟨T, n, sender, false⟩)
    (hst : Created s.db T ∨ Processing s.db T) (hD : Counts s.db T n)
    (hs : (payflowUpTo m P).step s (.start (.task i)) = some s₁)
    (hrun : Machine.Traced (payflowUpTo m P) s.procs.length s₁ tr' s')
    (hend : s'.procs[s.procs.length]? = some ⟨.task i, .done out⟩)
    (hgenuine : ∀ a ∈ tr', ∀ out, outcome? a = some out → Genuine out) :
    AttemptEnds m n T n s'.db tr' ∧ s'.world.messages =
      (s.world.messages ++ tr'.flatMap (sentBy s.procs.length)).modify i fun msg =>
        { msg with acked := true } := by
  have hstart : (payflowUpTo m P).start s.world (.task i) =
      some ((runTaskUpTo m ⟨T, n, sender, false⟩).bind fun r => .pure (.task r)) := by
    show startUpTo m P s.world (.task i) = _
    simp only [startUpTo, hmsg]
    rfl
  simp only [Machine.step, hstart] at hs
  obtain rfl := Option.some.inj hs
  have hp : (s.procs ++ [⟨.task i, .run ((runTaskUpTo m ⟨T, n, sender, false⟩).bind fun r =>
      .pure (.task r))⟩])[s.procs.length]? = some ⟨.task i, .run ((runTaskUpTo m
        ⟨T, n, sender, false⟩).bind fun r => .pure (.task r))⟩ := List.getElem?_concat_length
  have hsolo : Machine.SoloStatus (payflowUpTo m P) s.procs.length (Machine.AnsweredAs tr')
      (fun _ D' n' => AttemptEnds m n T n D' (tr'.take n')) s.db 0
      (.run ((runTaskUpTo m ⟨T, n, sender, false⟩).bind fun r => .pure (.task r))) :=
    (solo_runTask hst hD hgenuine).bind (fun _ _ _ h => h) fun _ _ _ h => h
  have hends := hrun.ends hp hsolo hend
  rw [List.take_length] at hends
  obtain ⟨st, hst', ⟨hopen, -⟩ | ⟨-, hw⟩⟩ := traced_messages hrun hp
  · obtain ⟨-, rfl⟩ := Machine.Proc.mk.inj (Option.some.inj (hend.symm.trans hst'))
    exact absurd rfl (hopen out)
  · exact ⟨hends, hw⟩

theorem over_of_acked
    (honly : ∀ (j : ℕ) (msg : Message), s.world.messages[j]? = some msg → msg.task = T →
      msg.acked = false → j = i)
    (hw : s'.world.messages = s.world.messages.modify i fun msg => { msg with acked := true }) :
    Over T s' := by
  intro j msg hj hT
  rcases acked_cases (hw ▸ hj) with ⟨-, hacked⟩ | ⟨hne, hold⟩
  · exact hacked
  · cases hacked : msg.acked with
    | true => rfl
    | false => exact absurd (honly j msg hold hT hacked) hne

/-- A new message of the task takes the place of the one that is acknowledged. -/
theorem waiting_of_acked {retries : ℕ} (hmsg : s.world.messages[i]? = some ⟨T, n, sender, false⟩)
    (honly : ∀ (j : ℕ) (msg : Message), s.world.messages[j]? = some msg → msg.task = T →
      msg.acked = false → j = i)
    (hw : s'.world.messages = (s.world.messages ++ [(⟨T, retries, pid, false⟩ : Message)]).modify i
      fun msg => { msg with acked := true }) :
    s'.world.messages[s.world.messages.length]? = some ⟨T, retries, pid, false⟩ ∧
      ∀ (j : ℕ) (msg : Message), s'.world.messages[j]? = some msg → msg.task = T →
        msg.acked = false → j = s.world.messages.length := by
  have hlt : i < s.world.messages.length := (List.getElem?_eq_some_iff.mp hmsg).1
  refine ⟨?_, fun j msg hj hT hacked => ?_⟩
  · rw [hw, List.getElem?_modify, List.getElem?_concat_length]
    simp [Nat.ne_of_lt hlt]
  · rcases acked_cases (hw ▸ hj) with ⟨-, hacked'⟩ | ⟨hne, hold⟩
    · exact absurd (hacked.symm.trans hacked') (by decide)
    · rcases Nat.lt_trichotomy j s.world.messages.length with hjlt | hj | hjgt
      · rw [List.getElem?_append_left hjlt] at hold
        exact absurd (honly j msg hold hT hacked) hne
      · exact hj
      · rw [List.getElem?_eq_none (by simp; omega)] at hold
        cases hold

/-- **An execution** brings a run forward. -/
theorem Progress.next {retries : ℕ} (h : Progress m T tr s)
    (hmsg : s.world.messages[i]? = some ⟨T, retries, sender, false⟩)
    (hs : (payflowUpTo m P).step s (.start (.task i)) = some s₁)
    (hrun : Machine.Traced (payflowUpTo m P) s.procs.length s₁ tr' s')
    (hend : s'.procs[s.procs.length]? = some ⟨.task i, .done out⟩)
    (hgenuine : ∀ a ∈ tr', ∀ out, outcome? a = some out → Genuine out) :
    Progress m T (tr ++ tr') s' := by
  cases h with
  | acked hover => exact absurd (hover i _ hmsg rfl) Bool.false_ne_true
  | @waiting i' n sender' hmsg' honly hle hD hst hcalls htransients hscheduled hrefused =>
    obtain rfl := honly i _ hmsg rfl rfl
    obtain ⟨rfl, rfl⟩ : retries = n ∧ sender = sender' := by
      obtain ⟨-, h₁, h₂, -⟩ := Message.mk.inj (Option.some.inj (hmsg.symm.trans hmsg'))
      exact ⟨h₁, h₂⟩
    obtain ⟨hends, hw⟩ := execution_ends hmsg hst hD hs hrun hend hgenuine
    obtain ⟨hcalls', htransients', hscheduled', hrefused'⟩ := tallies_append tr tr'
    cases hends with
    | @again a out hout htransient hlt hD' hp =>
      have hsent : [a, ⟨.sendRetry T (retries + 1), true⟩].flatMap (sentBy s.procs.length) =
          [⟨T, retries + 1, s.procs.length, false⟩] := by
        rw [List.flatMap_cons, sentBy_request hout]
        rfl
      obtain ⟨hmsg'', honly'⟩ := waiting_of_acked hmsg honly (hsent ▸ hw)
      obtain ⟨h₁, h₂, h₃, h₄⟩ := tallies_pair hout T (retries + 1) true
      simp only [htransient, if_true] at h₂ h₃ h₄
      exact .waiting hmsg'' honly' hlt hD' (Or.inr hp) (by omega) (by omega) (by omega) (by omega)
    | @refused a out hout htransient hlt hD' =>
      have hsent : [a, ⟨.sendRetry T (retries + 1), false⟩].flatMap (sentBy s.procs.length) =
          [] := by
        rw [List.flatMap_cons, sentBy_request hout]
        rfl
      rw [hsent, List.append_nil] at hw
      obtain ⟨h₁, h₂, h₃, h₄⟩ := tallies_pair hout T (retries + 1) false
      simp only [htransient, if_true, Bool.false_eq_true, if_false] at h₂ h₃ h₄
      exact .acked (over_of_acked honly hw) hD' (by omega) (by omega) (Or.inl ⟨by omega, by omega⟩)
    | @exhausted a out hout htransient hle' hD' =>
      rw [List.flatMap_cons, sentBy_request hout, List.flatMap_nil, List.append_nil,
        List.append_nil] at hw
      obtain ⟨h₁, h₂, h₃, h₄⟩ := tallies_request hout
      rw [if_pos htransient] at h₂
      exact .acked (over_of_acked honly hw) hD' (by omega) (by omega)
        (Or.inr ⟨by omega, by omega, by omega⟩)
    | @answered a out hout htransient hD' =>
      rw [List.flatMap_cons, sentBy_request hout, List.flatMap_nil, List.append_nil,
        List.append_nil] at hw
      obtain ⟨h₁, h₂, h₃, h₄⟩ := tallies_request hout
      rw [if_neg (by simp [htransient])] at h₂
      exact .acked (over_of_acked honly hw) hD' (by omega) (by omega) (Or.inl ⟨by omega, by omega⟩)
    | unasked _ hD' =>
      rw [List.flatMap_nil, List.append_nil] at hw
      rw [List.append_nil]
      exact .acked (over_of_acked honly hw) hD' (by omega) (by omega) (Or.inl ⟨by omega, by omega⟩)

/-- **A run** of the task. -/
theorem Executions.progress {s₀ : Machine.State (payflowUpTo m P)} (h₀ : Begun T s₀)
    (h : Executions P m T s₀ tr s) : Progress m T tr s := by
  induction h with
  | refl =>
    obtain ⟨i, sender, hmsg, honly⟩ := h₀.message
    exact .waiting hmsg honly (Nat.zero_le _) h₀.counts (Or.inl h₀.created) rfl rfl rfl rfl
  | next _ hmsg hs hrun hend hgenuine ih => exact ih.next hmsg hs hrun hend hgenuine

/-- **Main result.** When no message of the task is left, its two counters are equal to the number
of the retries that were scheduled if and only if the broker took every retry and at most `m`
outcomes were transient; the provider was asked at most `m + 1` times in any case. -/
theorem bookkept_iff {s₀ : Machine.State (payflowUpTo m P)} (h₀ : Begun T s₀)
    (h : Executions P m T s₀ tr s) (hover : Over T s) :
    Bookkept m T tr s.db ↔ refusedRetries tr = 0 ∧ transients tr ≤ m := by
  cases h.progress h₀ with
  | waiting hmsg => exact absurd (hover _ _ hmsg rfl) Bool.false_ne_true
  | @acked n _ hD htransients hcalls hn =>
    constructor
    · rintro ⟨hcounts, -⟩
      have heq : n = scheduled tr := Option.some.inj (hD.row.symm.trans hcounts.row)
      omega
    · rintro ⟨hrefused, hle⟩
      have heq : n = scheduled tr := by omega
      exact ⟨heq ▸ hD, hcalls⟩

end run

/-! ### Runs -/

section runs

variable {P : Platform} {m i n sender : ℕ} {T : Task} {s : Machine.State (payflowUpTo m P)}

/-- The provider gives one answer always, and the broker takes everything. -/
def Answers (out : HttpOutcome) : ℕ → (e : Ext) → ERes e → Prop
  | _, .postPayment _ _, r | _, .postRefund _ _, r => r = out
  | _, .delay _, (sent : Bool) | _, .sendRetry _ _, (sent : Bool) => sent = true
  | _, _, _ => True

theorem answerable_answers {pid : ℕ} (out : HttpOutcome) :
    Machine.Answerable (payflowUpTo m P) pid (Answers out) where
  pick := ⟨.nothing⟩
  exec := exists_exec
  ext n w e := by
    cases e with
    | uuid4 => exact ⟨.newId ⟨0⟩, _, _, rfl, trivial⟩
    | redisSet _ _ | redisRelease _ _ => exact ⟨.redis none, _, _, rfl, trivial⟩
    | delay _ | sendRetry _ _ => exact ⟨.broker true, true, _, rfl, rfl⟩
    | postPayment _ _ | postRefund _ _ => exact ⟨.http out, out, w, rfl, rfl⟩
    | getPayment _ => exact ⟨.http out, out, w, rfl, trivial⟩

/-- No process holds a lock. -/
def Free (s : Machine.State (payflowUpTo m P)) : Prop := ∀ p ∈ s.procs, p.status.locks = []

theorem exists_execution (hfree : Free s)
    (hmsg : s.world.messages[i]? = some ⟨T, n, sender, false⟩) (out : HttpOutcome) :
    ∃ s₁ tr' s' res, (payflowUpTo m P).step s (.start (.task i)) = some s₁ ∧
      Machine.Traced (payflowUpTo m P) s.procs.length s₁ tr' s' ∧
      s'.procs[s.procs.length]? = some ⟨.task i, .done res⟩ ∧ Free s' ∧
      (∀ a ∈ tr', ∀ out', outcome? a = some out' → out' = out) ∧
      (∀ a ∈ tr', sendsRetry false a = false) := by
  have hstart : (payflowUpTo m P).start s.world (.task i) =
      some ((runTaskUpTo m ⟨T, n, sender, false⟩).bind fun r => .pure (.task r)) := by
    show startUpTo m P s.world (.task i) = _
    simp only [startUpTo, hmsg]
    rfl
  set p : Proc Ans := (runTaskUpTo m ⟨T, n, sender, false⟩).bind fun r => .pure (.task r)
  have hs : (payflowUpTo m P).step s (.start (.task i)) =
      some { s with procs := s.procs ++ [⟨.task i, .run p⟩] } := by
    simp only [Machine.step, hstart]
  have hp : (s.procs ++ [(⟨.task i, .run p⟩ : Machine.Proc (payflowUpTo m P))])[s.procs.length]? =
      some ⟨.task i, .run p⟩ := List.getElem?_concat_length
  have herase : (s.procs ++ [(⟨.task i, .run p⟩ : Machine.Proc (payflowUpTo m P))]).eraseIdx
      s.procs.length = s.procs := by
    rw [List.eraseIdx_append_of_length_le (Nat.le_refl _)]
    simp
  have hlocks : Machine.othersLocks (payflowUpTo m P)
      { s with procs := s.procs ++ [⟨.task i, .run p⟩] } s.procs.length = [] := by
    unfold Machine.othersLocks
    rw [herase]
    exact List.flatMap_eq_nil_iff.mpr hfree
  obtain ⟨n', s', res, hrun, hend⟩ :=
    Machine.exists_end (answerable_answers out) p (n := 0) hp hlocks
  obtain ⟨tr', htr, -, hC⟩ := hrun.traced
  refine ⟨_, tr', s', res, hs, htr, hend, fun x hx => ?_, fun a ha out' hout' => ?_, fun a ha => ?_⟩
  · obtain ⟨j, hj⟩ := List.mem_iff_getElem?.mp hx
    by_cases hjp : j = s.procs.length
    · obtain rfl := Option.some.inj ((hjp ▸ hj).symm.trans hend)
      rfl
    · have hother : x ∈ s'.procs.eraseIdx s.procs.length :=
        List.mem_eraseIdx_iff_getElem?.mpr ⟨j, hjp, hj⟩
      rw [hrun.others, herase] at hother
      exact hfree x hother
  · obtain ⟨j, hj⟩ := List.mem_iff_getElem?.mp ha
    obtain ⟨e, r⟩ := a
    have hanswer : Answers out (0 + j) e r := hC j e r hj
    cases e with
    | postPayment _ _ | postRefund _ _ => exact (Option.some.inj hout').symm.trans hanswer
    | _ => cases hout'
  · obtain ⟨j, hj⟩ := List.mem_iff_getElem?.mp ha
    obtain ⟨e, r⟩ := a
    have hanswer : Answers out (0 + j) e r := hC j e r hj
    cases e with
    | sendRetry _ _ =>
      obtain rfl : r = true := hanswer
      rfl
    | _ => rfl

theorem exists_attempt {s₀ : Machine.State (payflowUpTo m P)} {tr : List (Sigma ERes)}
    (h₀ : Begun T s₀) (hex : Executions P m T s₀ tr s) (hfree : Free s)
    (hmsg : s.world.messages[i]? = some ⟨T, n, sender, false⟩) (out : HttpOutcome)
    (hout : Genuine out) :
    ∃ tr' s', Executions P m T s₀ (tr ++ tr') s' ∧ Free s' ∧ AttemptEnds m n T n s'.db tr' ∧
      s'.world.messages = ((s.world.messages ++ tr'.flatMap (sentBy s.procs.length)).modify i
        fun msg => { msg with acked := true }) ∧
      (∀ a ∈ tr', ∀ out', outcome? a = some out' → out' = out) ∧
      (∀ a ∈ tr', sendsRetry false a = false) ∧
      (∀ (j : ℕ) (msg : Message), s.world.messages[j]? = some msg → msg.task = T →
        msg.acked = false → j = i) ∧
      transients tr = n ∧ scheduled tr = n ∧ refusedRetries tr = 0 := by
  obtain ⟨s₁, tr', s', res, hs, hrun, hend, hfree', houts, htaken⟩ :=
    exists_execution hfree hmsg out
  have hgenuine : ∀ a ∈ tr', ∀ out, outcome? a = some out → Genuine out := fun a ha out' hout' => by
    rw [houts a ha out' hout']
    exact hout
  cases hex.progress h₀ with
  | acked hover => exact absurd (hover _ _ hmsg rfl) Bool.false_ne_true
  | @waiting i' n' sender' hmsg' honly _ hD hst _ htransients hscheduled hrefused =>
    obtain rfl := honly i _ hmsg rfl rfl
    obtain ⟨rfl, rfl⟩ : n = n' ∧ sender = sender' := by
      obtain ⟨-, h₁, h₂, -⟩ := Message.mk.inj (Option.some.inj (hmsg.symm.trans hmsg'))
      exact ⟨h₁, h₂⟩
    obtain ⟨hends, hw⟩ := execution_ends hmsg hst hD hs hrun hend hgenuine
    exact ⟨tr', s', hex.next hmsg hs hrun hend hgenuine, hfree', hends, hw, houts, htaken, honly,
      htransients, hscheduled, hrefused⟩

section payment

variable {p : Uuid} {scenario : Scenario} {s₀ : Machine.State (payflowUpTo m P)}
  {tr : List (Sigma ERes)}

theorem exists_timeout (h₀ : Begun (.processPayment p scenario) s₀)
    (hex : Executions P m (.processPayment p scenario) s₀ tr s) (hfree : Free s)
    (hmsg : s.world.messages[i]? = some ⟨.processPayment p scenario, n, sender, false⟩) :
    ∃ tr' s', Executions P m (.processPayment p scenario) s₀ (tr ++ tr') s' ∧ Free s' ∧
      ((n < m ∧ ∃ i' sender' : ℕ, s'.world.messages[i']? =
        some ⟨.processPayment p scenario, n + 1, sender', false⟩) ∨
      (m ≤ n ∧ Over (.processPayment p scenario) s' ∧
        Counts s'.db (.processPayment p scenario) (n + 1) ∧ scheduled (tr ++ tr') = n)) := by
  obtain ⟨tr', s', hex', hfree', hends, hw, houts, htaken, honly, -, hscheduled, -⟩ :=
    exists_attempt h₀ hex hfree hmsg .timeoutException trivial
  refine ⟨tr', s', hex', hfree', ?_⟩
  cases hends with
  | @again a out hout _ hlt =>
    rw [List.flatMap_cons, sentBy_request hout] at hw
    exact Or.inl ⟨hlt, _, _, (waiting_of_acked hmsg honly hw).1⟩
  | @refused a out hout =>
    have htrue : sendsRetry false ⟨.sendRetry (.processPayment p scenario) (n + 1), false⟩ = true :=
      rfl
    exact absurd (htrue.symm.trans (htaken _ (by simp))) Bool.noConfusion
  | @exhausted a out hout _ hge hD' =>
    rw [List.flatMap_cons, sentBy_request hout, List.flatMap_nil, List.append_nil,
      List.append_nil] at hw
    obtain ⟨-, -, happend, -⟩ := tallies_append tr [a]
    obtain ⟨-, -, hone, -⟩ := tallies_request hout
    exact Or.inr ⟨hge, over_of_acked honly hw, hD', by omega⟩
  | @answered a out hout htransient =>
    rw [houts a (by simp) out hout] at htransient
    cases htransient
  | unasked hT => exact absurd rfl (hT p scenario)

theorem exists_answered (h₀ : Begun (.processPayment p scenario) s₀)
    (hex : Executions P m (.processPayment p scenario) s₀ tr s) (hfree : Free s)
    (hmsg : s.world.messages[i]? = some ⟨.processPayment p scenario, n, sender, false⟩)
    (out : HttpOutcome) (hgenuine : Genuine out) (hfinal : isTransient out = false) :
    ∃ tr' s', Executions P m (.processPayment p scenario) s₀ (tr ++ tr') s' ∧
      Over (.processPayment p scenario) s' ∧ transients (tr ++ tr') = n ∧
      scheduled (tr ++ tr') = n ∧ refusedRetries (tr ++ tr') = 0 := by
  obtain ⟨tr', s', hex', -, hends, hw, houts, -, honly, htransients, hscheduled, hrefused⟩ :=
    exists_attempt h₀ hex hfree hmsg out hgenuine
  refine ⟨tr', s', hex', ?_⟩
  cases hends with
  | @again a out' hout htransient | @refused a out' hout htransient
  | @exhausted a out' hout htransient =>
    rw [houts a (by simp) out' hout, hfinal] at htransient
    cases htransient
  | @answered a out' hout htransient =>
    rw [List.flatMap_cons, sentBy_request hout, List.flatMap_nil, List.append_nil,
      List.append_nil] at hw
    obtain ⟨-, h₂, h₃, h₄⟩ := tallies_append tr [a]
    obtain ⟨-, h₂', h₃', h₄'⟩ := tallies_request hout
    rw [if_neg (by simp [htransient])] at h₂'
    exact ⟨over_of_acked honly hw, by omega, by omega, by omega⟩
  | unasked hT => exact absurd rfl (hT p scenario)

/-- Requests that all time out, as long as there is a retry left. -/
theorem exists_timeouts (h₀ : Begun (.processPayment p scenario) s₀) (hfree : Free s₀) :
    ∀ n ≤ m, ∃ tr s, ∃ i sender : ℕ, Executions P m (.processPayment p scenario) s₀ tr s ∧ Free s ∧
      s.world.messages[i]? = some ⟨.processPayment p scenario, n, sender, false⟩ := by
  intro n
  induction n with
  | zero =>
    obtain ⟨i, sender, hmsg, -⟩ := h₀.message
    exact fun _ => ⟨[], s₀, i, sender, .refl, hfree, hmsg⟩
  | succ n ih =>
    intro hle
    obtain ⟨tr, s, i, sender, hex, hfree, hmsg⟩ := ih (by omega)
    obtain ⟨tr', s', hex', hfree', ⟨-, i', sender', hmsg'⟩ | ⟨hge, -⟩⟩ :=
      exists_timeout h₀ hex hfree hmsg
    · exact ⟨tr ++ tr', s', i', sender', hex', hfree', hmsg'⟩
    · omega

/-- **Whatever the limit**, there is a run in which all requests time out, and one retry more is
counted than was scheduled. -/
theorem exists_exhausted (h₀ : Begun (.processPayment p scenario) s₀) (hfree : Free s₀) :
    ∃ tr s, Executions P m (.processPayment p scenario) s₀ tr s ∧
      Over (.processPayment p scenario) s ∧ Counts s.db (.processPayment p scenario) (m + 1) ∧
      scheduled tr = m := by
  obtain ⟨tr, s, i, sender, hex, hfree, hmsg⟩ := exists_timeouts h₀ hfree m (Nat.le_refl m)
  obtain ⟨tr', s', hex', -, ⟨hlt, -⟩ | ⟨-, hover, hD, hscheduled⟩⟩ :=
    exists_timeout h₀ hex hfree hmsg
  · omega
  · exact ⟨tr ++ tr', s', hex', hover, hD, hscheduled⟩

end payment

end runs

/-! ### Examples -/

/-- A new payment. -/
def newExample : Payment :=
  newPayment 0 (exampleUuid 1) "demo-merchant" "payment-key-1" exampleHash "user-1" 500 "INR"

/-- Its task has been sent, and nothing else has happened. -/
def oneMessage (m : ℕ) : Machine.State (payflowUpTo m examplePlatform) where
  db := { Db.empty with payments := [newExample] }
  world := ⟨[⟨.processPayment (exampleUuid 1) .success, 0, 0, false⟩]⟩
  clock := 0
  procs := []

theorem oneMessage_begun (m : ℕ) :
    Begun (.processPayment (exampleUuid 1) .success) (oneMessage m) where
  created := ⟨newExample, rfl, rfl⟩
  counts := ⟨rfl, rfl⟩
  message := ⟨0, 0, rfl, fun j msg hj _ _ => by
    cases j with
    | zero => rfl
    | succ j => cases hj⟩

/-- The first request times out, and the retry succeeds. -/
theorem bookkept_retried : ∃ tr s, Executions examplePlatform maxRetries
      (.processPayment (exampleUuid 1) .success) (oneMessage maxRetries) tr s ∧
    scheduled tr = 1 ∧
    Bookkept maxRetries (.processPayment (exampleUuid 1) .success) tr s.db := by
  have h₀ := oneMessage_begun maxRetries
  have hmsg : (oneMessage maxRetries).world.messages[0]? =
      some ⟨.processPayment (exampleUuid 1) .success, 0, 0, false⟩ := rfl
  obtain ⟨tr, s, hex, hfree, ⟨-, i, sender, hmsg'⟩ | ⟨hge, -⟩⟩ :=
    exists_timeout h₀ .refl (fun _ hp => by cases hp) hmsg
  · obtain ⟨tr', s', hex', hover, htransients, hscheduled, hrefused⟩ :=
      exists_answered h₀ hex hfree hmsg' (.response 200 "" (.ok (.obj
        [("status", .str "SUCCEEDED"), ("provider_payment_id", .str "provider_1")]))) trivial rfl
    refine ⟨_, s', hex', hscheduled, (bookkept_iff h₀ hex' hover).mpr ⟨hrefused, ?_⟩⟩
    rw [htransients]
    decide
  · exact absurd hge (by decide)

/-- **A retry that was never scheduled is counted.** All four requests time out; three retries are
scheduled, and four are counted. -/
theorem bookkept_fails : ∃ tr s, Executions examplePlatform maxRetries
      (.processPayment (exampleUuid 1) .success) (oneMessage maxRetries) tr s ∧
    Over (.processPayment (exampleUuid 1) .success) s ∧
    Counts s.db (.processPayment (exampleUuid 1) .success) 4 ∧ scheduled tr = 3 ∧
    ¬ Bookkept maxRetries (.processPayment (exampleUuid 1) .success) tr s.db := by
  obtain ⟨tr, s, hex, hover, hD, hscheduled⟩ :=
    exists_exhausted (oneMessage_begun maxRetries) fun _ hp => by cases hp
  refine ⟨tr, s, hex, hover, hD, hscheduled, fun ⟨hcounts, _⟩ => ?_⟩
  have heq : maxRetries + 1 = scheduled tr := Option.some.inj (hD.row.symm.trans hcounts.row)
  omega

end Payflow.Safety
