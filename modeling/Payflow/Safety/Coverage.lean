import Payflow.Safety.Independence
import Payflow.Lib.Batches

/-! # Which payments reconciliation reaches

Consecutive runs of `reconcile_processing_payments` with nothing else running, on any table and for
any answers that the provider keeps to. A run looks at the 100 oldest payments that wait, and a
payment whose lookup is not final stays among the oldest and takes a place in every later run.
Payments that were updated at the same time may be taken in any order, in each run in another one.
So the runs that would be enough for the whole table move every payment with a final answer exactly
if they reach it in the worst order. -/

namespace Payflow.Safety

open Payflow.Lib Payflow.Model Payflow.Spec

variable {P : Platform}

/-- What the provider has to say about a payment. -/
inductive ProviderAnswer where
  | succeeded | failed | processing | transientError | permanentError
  deriving DecidableEq

namespace ProviderAnswer

/-- The final status, if there is one. -/
def final : ProviderAnswer → Option PaymentStatus
  | succeeded => some .succeeded
  | failed => some .failed
  | _ => none

/-- The outcomes of a lookup that say so. -/
inductive Gives : ProviderAnswer → HttpOutcome → Prop
  | succeeded {statusCode text fields} : statusCode < 400 →
      fields.lookup "status" = some (.str "SUCCEEDED") →
      Gives succeeded (.response statusCode text (.ok (.obj fields)))
  | failed {statusCode text fields} : statusCode < 400 →
      fields.lookup "status" = some (.str "FAILED") →
      Gives failed (.response statusCode text (.ok (.obj fields)))
  | processing {statusCode text fields} : statusCode < 400 →
      fields.lookup "status" = some (.str "PROCESSING") →
      Gives processing (.response statusCode text (.ok (.obj fields)))
  | timeout : Gives transientError .timeoutException
  | network : Gives transientError .networkError
  | unavailable {statusCode text json} : statusCode ≥ 500 →
      Gives transientError (.response statusCode text json)
  | rejected {statusCode text json} : statusCode ≥ 400 → statusCode < 500 →
      Gives permanentError (.response statusCode text json)

end ProviderAnswer

theorem uniform_answers (answer : Uuid → ProviderAnswer) :
    Uniform (fun id out => (answer id).Gives out) (fun id => (answer id).final) fun _ => true where
  report id out h := by
    generalize answer id = a at h
    cases h with
    | succeeded hcode hfield | failed hcode hfield | processing hcode hfield =>
      simp only [reported, if_pos hcode, hfield]
      rfl
    | timeout | network => rfl
    | @unavailable statusCode text json hcode | @rejected statusCode text json hcode =>
      have hlt : ¬ statusCode < 400 := by omega
      unfold reported
      split
      · rename_i he
        cases he
        exact if_neg hlt
      · rfl
  good id out h := by
    generalize answer id = a at h
    cases h with
    | succeeded _ hfield | failed _ hfield | processing _ hfield =>
      simp [expected, hfield, hashable]
    | timeout | network => rfl
    | unavailable hcode => simp [expected]; omega
    | rejected hcode => simp [expected, hcode]

theorem exists_gives (a : ProviderAnswer) : ∃ out, a.Gives out := by
  cases a with
  | succeeded =>
    exact ⟨.response 200 "" (.ok (.obj [("status", .str "SUCCEEDED")])), .succeeded (by decide) rfl⟩
  | failed =>
    exact ⟨.response 200 "" (.ok (.obj [("status", .str "FAILED")])), .failed (by decide) rfl⟩
  | processing =>
    exact ⟨.response 200 "" (.ok (.obj [("status", .str "PROCESSING")])),
      .processing (by decide) rfl⟩
  | transientError => exact ⟨.timeoutException, .timeout⟩
  | permanentError =>
    exact ⟨.response 404 "" (.ok .null), .rejected (by decide) (by decide)⟩

/-! ### The runs -/

/-- One run: time passes, an execution is started, and it runs alone to its end. -/
def OneRun (answer : Uuid → ProviderAnswer) (tie : Uuid → ℕ) (s s' : State P) : Prop :=
  ∃ d s₁ s₂ s₃ n out, (payflow P).step s (.tick d) = some s₁ ∧
    (payflow P).step s₁ (.start .reconcilePayments) = some s₂ ∧
    Begins s₂ s₃ s.procs.length tie ∧
    Machine.RunsSolo (payflow P) s.procs.length (Lookups (processingPayments tie s₂.clock s₂.db)
      fun id out => (answer id).Gives out) 0 s₃ n s' ∧
    s'.procs[s.procs.length]? = some ⟨.reconcilePayments, .done out⟩

/-- Consecutive runs; each of them orders payments that were updated at the same time in its own
way. -/
inductive ConsecutiveRuns (answer : Uuid → ProviderAnswer) (ties : ℕ → Uuid → ℕ) (s : State P) :
    ℕ → State P → Prop
  | zero : ConsecutiveRuns answer ties s 0 s
  | succ {k s' s''} : ConsecutiveRuns answer ties s k s' → OneRun answer (ties k) s' s'' →
    ConsecutiveRuns answer ties s (k + 1) s''

/-- No process holds a lock. -/
def Idle (s : State P) : Prop := ∀ p ∈ s.procs, p.status.locks = []

section run

variable {answer : Uuid → ProviderAnswer} {tie : Uuid → ℕ} {s s' : State P}

theorem started {d : ℕ} {s₁ s₂ : State P} (htick : (payflow P).step s (.tick d) = some s₁)
    (hstart : (payflow P).step s₁ (.start .reconcilePayments) = some s₂) :
    s₂.db = s.db ∧ s₂.clock = s.clock + d ∧ s₂.procs = s.procs ++
      [⟨.reconcilePayments, .run (reconcileProcessingPayments.bind fun r =>
        .pure (.reconciled r))⟩] := by
  obtain rfl := Option.some.inj htick
  obtain rfl := Option.some.inj hstart
  exact ⟨rfl, rfl, rfl⟩

theorem OneRun.corrected (h : OneRun answer tie s s') (hids : (s.db.payments.map (·.id)).Nodup) :
    ∃ now, s.clock ≤ now ∧ now ≤ s'.clock ∧ Corrected s.db s'.db (fun id => (answer id).final)
      ((processingPayments tie now s.db).map (·.id)) := by
  obtain ⟨d, s₁, s₂, s₃, n, out, htick, hstart, hbegins, hrun, hend⟩ := h
  obtain ⟨hdb, hclock, -⟩ := started htick hstart
  obtain ⟨res, hres, -⟩ := run_ends (uniform_answers answer) (hdb ▸ hids) hbegins hrun hend
  have hle := hbegins.begun.2.1.trans hrun.clock_le
  rw [hclock] at hle
  rw [hdb, hclock] at hres
  refine ⟨s.clock + d, Nat.le_add_right _ _, hle, ?_⟩
  cases res with
  | ok counts => exact hres.2.1
  | error e =>
    obtain ⟨done, payment, rest, hsplit, hbad, -⟩ := hres
    cases hbad

theorem OneRun.idle (h : OneRun answer tie s s') (hidle : Idle s) : Idle s' := by
  obtain ⟨d, s₁, s₂, s₃, n, out, htick, hstart, hbegins, hrun, hend⟩ := h
  obtain ⟨-, -, hprocs⟩ := started htick hstart
  have hothers : s'.procs.eraseIdx s.procs.length = s.procs := by
    rw [hrun.others, hbegins.begun.2.2.1, hprocs,
      List.eraseIdx_append_of_length_le (Nat.le_refl _)]
    simp
  intro p hp
  obtain ⟨i, hi⟩ := List.mem_iff_getElem?.mp hp
  by_cases he : i = s.procs.length
  · subst he
    obtain rfl := Option.some.inj (hend.symm.trans hi)
    rfl
  · exact hidle p (hothers ▸ List.mem_eraseIdx_iff_getElem?.mpr ⟨i, he, hi⟩)

theorem OneRun.exists (answer : Uuid → ProviderAnswer) (tie : Uuid → ℕ) (hidle : Idle s) :
    ∃ s', OneRun answer tie s s' := by
  obtain ⟨s₁, htick⟩ : ∃ s₁, (payflow P).step s (.tick 0) = some s₁ := ⟨_, rfl⟩
  obtain ⟨s₂, hstart⟩ : ∃ s₂, (payflow P).step s₁ (.start .reconcilePayments) = some s₂ := ⟨_, rfl⟩
  obtain ⟨-, -, hprocs⟩ := started htick hstart
  have hp : s₂.procs[s.procs.length]? = some ⟨.reconcilePayments,
      .run (reconcileProcessingPayments.bind fun r => .pure (.reconciled r))⟩ := by
    simp [hprocs]
  have halone : Machine.othersLocks (payflow P) s₂ s.procs.length = [] := by
    unfold Machine.othersLocks
    rw [hprocs, List.eraseIdx_append_of_length_le (Nat.le_refl _)]
    simpa [Idle] using hidle
  obtain ⟨s₃, hs₃, hp₃, hl₃⟩ := Machine.step_advance .nothing hp halone rfl
  obtain ⟨s₄, hs₄, hp₄, hl₄⟩ : ∃ s₄, (payflow P).step s₃ (.tick 0) = some s₄ ∧
      s₄.procs = s₃.procs ∧ Machine.othersLocks (payflow P) s₄ s.procs.length = [] :=
    ⟨_, rfl, rfl, hl₃⟩
  rw [← hp₄] at hp₃
  obtain ⟨s₅, hs₅, -, -⟩ := Machine.step_advance (.rows tie) hp₃ hl₄ rfl
  have hbegins : Begins s₂ s₅ s.procs.length tie :=
    ⟨⟨_, rfl, hp⟩, halone, .nothing, s₃, 0, s₄, .rows tie, hs₃, hs₄, hs₅, rfl⟩
  obtain ⟨n, s', out, hrun, hend⟩ := run_exists (fun id => exists_gives (answer id)) hbegins
  exact ⟨s', 0, s₁, s₂, s₅, n, out, htick, hstart, hbegins, hrun, hend⟩

theorem ConsecutiveRuns.exists (answer : Uuid → ProviderAnswer) (ties : ℕ → Uuid → ℕ)
    (hidle : Idle s) : ∀ k, ∃ s', ConsecutiveRuns answer ties s k s' ∧ Idle s'
  | 0 => ⟨s, .zero, hidle⟩
  | k + 1 => by
    obtain ⟨s', hruns, hidle'⟩ := ConsecutiveRuns.exists answer ties hidle k
    obtain ⟨s'', hrun⟩ := OneRun.exists answer (ties k) hidle'
    exact ⟨s'', .succ hruns hrun, hrun.idle hidle'⟩

end run

/-! ### The payments that are reached -/

section covered

variable {answer : Uuid → ProviderAnswer} {ties : ℕ → Uuid → ℕ} {s s' : State P} {k : ℕ}
  {done : Uuid → Bool}

/-- The provider's answer is final. -/
def hasFinal (answer : Uuid → ProviderAnswer) (id : Uuid) : Bool := (answer id).final.isSome

/-- The row of a payment before some runs and after them, where the payments `done` have been looked
up and their answers were final. -/
structure RowCovered (answer : Uuid → ProviderAnswer) (s : State P) (done : Uuid → Bool)
    (row row' : Payment) : Prop where
  id : row'.id = row.id
  moved : isEligible s.clock row = true → done row.id = true →
    some row'.status = (answer row.id).final
  same : isEligible s.clock row = true → done row.id = false → row' = row
  other : isEligible s.clock row = false → row' = row ∨ row'.status ≠ .processing

/-- The database after the runs. -/
structure DbCovered (answer : Uuid → ProviderAnswer) (s : State P) (done : Uuid → Bool)
    (s' : State P) : Prop where
  clock : s.clock ≤ s'.clock
  rows : ∃ f : Payment → Payment, s'.db.payments = s.db.payments.map f ∧
    ∀ row ∈ s.db.payments, RowCovered answer s done row (f row)

theorem final_ne_processing {a : ProviderAnswer} : a.final ≠ some .processing := by
  cases a <;> simp [ProviderAnswer.final]

theorem covered_zero : DbCovered answer s (fun _ => false) s where
  clock := Nat.le_refl _
  rows := ⟨id, (List.map_id _).symm, fun row _ => ⟨rfl, fun _ h => (by cases h), fun _ _ => rfl,
    fun _ => Or.inl rfl⟩⟩

theorem DbCovered.ids (h : DbCovered answer s done s') :
    s'.db.payments.map (·.id) = s.db.payments.map (·.id) := by
  obtain ⟨f, hrows, hf⟩ := h.rows
  rw [hrows, List.map_map]
  exact List.map_congr_left fun row hrow => (hf row hrow).id

theorem RowCovered.unchanged {row row' : Payment} (h : RowCovered answer s done row row') {now : ℕ}
    (he : isEligible now row' = true) : row' = row := by
  have hst := (isEligible_iff.mp he).1
  cases hel : isEligible s.clock row with
  | true =>
    cases hd : done row.id with
    | true =>
      have hmoved := h.moved hel hd
      rw [hst] at hmoved
      exact absurd hmoved.symm final_ne_processing
    | false => exact h.same hel hd
  | false =>
    rcases h.other hel with he | hne
    · exact he
    · exact absurd hst hne

/-- A payment that was eligible at first is so after the runs, unchanged, unless it is done. -/
theorem DbCovered.mem_eligible_iff (h : DbCovered answer s done s')
    (hids : (s.db.payments.map (·.id)).Nodup) {tie : Uuid → ℕ} {now : ℕ} (hnow : s.clock ≤ now)
    {row : Payment} (hrow : row ∈ s.db.payments) (hel : isEligible s.clock row = true) :
    row ∈ eligible tie now s'.db ↔ done row.id = false := by
  obtain ⟨f, hrows, hf⟩ := h.rows
  obtain ⟨hst, hsome, hlt⟩ := isEligible_iff.mp hel
  have hcovered := hf row hrow
  have hmem : f row ∈ s'.db.payments := hrows ▸ List.mem_map_of_mem hrow
  rw [mem_eligible]
  constructor
  · rintro ⟨hrow', -⟩
    cases hd : done row.id with
    | true =>
      have hsame : row = f row := eq_of_key (h.ids ▸ hids) hrow' hmem hcovered.id.symm
      have hmoved := hcovered.moved hel hd
      rw [← hsame, hst] at hmoved
      exact absurd hmoved.symm final_ne_processing
    | false => rfl
  · intro hd
    rw [hcovered.same hel hd] at hmem
    exact ⟨hmem, isEligible_iff.mpr ⟨hst, hsome, Nat.lt_of_lt_of_le hlt hnow⟩⟩

theorem DbCovered.newer (h : DbCovered answer s done s') {tie tie' : Uuid → ℕ} {now : ℕ}
    {row row' : Payment} (hrow : isEligible s.clock row = true)
    (hmem : row' ∈ eligible tie now s'.db) (hnot : row' ∉ eligible tie' s.clock s.db) :
    row.updatedAt < row'.updatedAt := by
  obtain ⟨f, hrows, hf⟩ := h.rows
  obtain ⟨hmem, hel⟩ := mem_eligible.mp hmem
  rw [hrows] at hmem
  obtain ⟨first, hfirst, rfl⟩ := List.mem_map.mp hmem
  have hsame := (hf first hfirst).unchanged hel
  rw [hsame] at hel hnot ⊢
  obtain ⟨-, -, hlt⟩ := isEligible_iff.mp hrow
  obtain ⟨hst, hsome, -⟩ := isEligible_iff.mp hel
  have hge : ¬ first.updatedAt + 10 * second < s.clock := fun hlt' =>
    hnot (mem_eligible.mpr ⟨hfirst, isEligible_iff.mpr ⟨hst, hsome, hlt'⟩⟩)
  omega

theorem RowCovered.step {row row' : Payment} (h : RowCovered answer s done row row')
    {looked : List Uuid} {time : Uuid → ℕ} (hlooked : row'.id ∈ looked → row' = row) :
    RowCovered answer s (fun id => done id || (decide (id ∈ looked) && hasFinal answer id)) row
      (correctedRow (fun id => (answer id).final) looked time row') := by
  constructor
  case id => rw [Corrected.correctedRow_id, h.id]
  case moved =>
    intro hel hd
    have hst := (isEligible_iff.mp hel).1
    cases hdone : done row.id with
    | true =>
      have hmoved := h.moved hel hdone
      have hnot : row'.id ∉ looked := fun hmem => by
        rw [hlooked hmem, hst] at hmoved
        exact final_ne_processing hmoved.symm
      rwa [Corrected.correctedRow_of_notMem hnot]
    | false =>
      obtain rfl := h.same hel hdone
      simp only [hdone, Bool.false_or, Bool.and_eq_true, decide_eq_true_eq] at hd
      obtain ⟨status, hstatus⟩ := Option.isSome_iff_exists.mp hd.2
      simp [correctedRow, hstatus, hd.1]
  case same =>
    intro hel hd
    obtain ⟨hdone, hnot⟩ := (Bool.or_eq_false_iff).mp hd
    obtain rfl := h.same hel hdone
    rcases (Bool.and_eq_false_iff).mp hnot with hnot | hnot
    · exact Corrected.correctedRow_of_notMem (of_decide_eq_false hnot)
    · exact Corrected.correctedRow_of_none (by simpa [hasFinal] using hnot)
  case other =>
    intro hel
    cases hstatus : (answer row'.id).final with
    | none =>
      rw [Corrected.correctedRow_of_none hstatus]
      exact h.other hel
    | some status =>
      by_cases hmem : row'.id ∈ looked
      · refine Or.inr fun hst => final_ne_processing (hstatus.trans (congrArg some ?_))
        rw [← hst]
        simp [correctedRow, hstatus, hmem]
      · rw [Corrected.correctedRow_of_notMem hmem]
        exact h.other hel

/-- **One more run** looks up a batch of the payments that are left, and moves those of them whose
answers are final. -/
theorem DbCovered.run {s'' : State P} (h : DbCovered answer s done s')
    (hids : (s.db.payments.map (·.id)).Nodup) {tie : Uuid → ℕ} (hrun : OneRun answer tie s' s'')
    (older : Payment → Payment → Prop)
    (holder : ∀ a b, older b a → ¬ timeOrder (·.updatedAt) (·.id) tie a b) (tie' : Uuid → ℕ) :
    ∃ batch : Uuid → Bool, Batch 100 older (eligible tie' s.clock s.db) (fun p => done p.id)
        (fun p => batch p.id) ∧
      DbCovered answer s (fun id => done id || (batch id && hasFinal answer id)) s'' := by
  obtain ⟨now, hle, hle', hcorrected⟩ := hrun.corrected (h.ids ▸ hids)
  have hnow := h.clock.trans hle
  have hids' : (s'.db.payments.map (·.id)).Nodup := h.ids ▸ hids
  refine ⟨fun id => decide (id ∈ (processingPayments tie now s'.db).map (·.id)), ?_, ?_⟩
  · have htotal := timeOrder_total (fun p : Payment => p.updatedAt) (fun p => p.id) tie
    have htrans := timeOrder_trans (fun p : Payment => p.updatedAt) (fun p => p.id) tie
    refine batch_of_take (E := eligible tie now s'.db) (List.pairwise_insertionSort _ _)
      (fun a _ b _ hold => holder a b hold) (eligible_ids hids _ _).of_map
      (eligible_ids hids' _ _).of_map (fun a ha => ?_) (fun a ha b hb hnot => ?_) fun a ha => ?_
    · obtain ⟨hmem, hel⟩ := mem_eligible.mp ha
      exact h.mem_eligible_iff hids hnow hmem hel
    · have hlt := h.newer (mem_eligible.mp ha).2 hb hnot
      rintro (h' | ⟨h', -⟩)
      · exact Nat.lt_asymm hlt h'
      · exact Nat.ne_of_gt hlt h'
    · rw [processingPayments_eq, decide_eq_true_eq]
      refine ⟨fun hmem => ?_, List.mem_map_of_mem⟩
      obtain ⟨p, hp, hid⟩ := List.mem_map.mp hmem
      obtain ⟨f, hrows, hf⟩ := h.rows
      obtain ⟨hpmem, hpel⟩ := mem_eligible.mp (List.mem_of_mem_take hp)
      -- the payment is still the row that it was
      rw [hrows] at hpmem
      obtain ⟨row, hrow, rfl⟩ := List.mem_map.mp hpmem
      have hsame := (hf row hrow).unchanged hpel
      rw [hsame] at hp hid
      rwa [eq_of_key hids hrow (mem_eligible.mp ha).1 hid] at hp
  · obtain ⟨time, hrows'⟩ := hcorrected.payments
    obtain ⟨f, hrows, hf⟩ := h.rows
    rw [hrows, List.map_map] at hrows'
    refine ⟨h.clock.trans (hle.trans hle'), _, hrows', fun row hrow => ?_⟩
    refine (hf row hrow).step fun hmem => ?_
    -- a payment that is looked up in this run is still as it was
    obtain ⟨p, hp, hid⟩ := List.mem_map.mp hmem
    obtain ⟨hp, he⟩ := mem_eligible.mp (List.mem_of_mem_take hp)
    obtain rfl := eq_of_key hids' hp (hrows ▸ List.mem_map_of_mem hrow) hid
    exact (hf row hrow).unchanged he

/-- **Consecutive runs** are rounds. -/
theorem ConsecutiveRuns.rounds (hids : (s.db.payments.map (·.id)).Nodup)
    (older : Payment → Payment → Prop)
    (holder : ∀ i a b, older b a → ¬ timeOrder (·.updatedAt) (·.id) (ties i) a b) (tie : Uuid → ℕ)
    (h : ConsecutiveRuns answer ties s k s') : ∃ done : Uuid → Bool,
      Rounds 100 older (fun p => hasFinal answer p.id) (eligible tie s.clock s.db) k
        (fun p => done p.id) ∧ DbCovered answer s done s' := by
  induction h with
  | zero => exact ⟨fun _ => false, .zero, covered_zero⟩
  | @succ k s' s'' _ hrun ih =>
    obtain ⟨done, hrounds, hcovered⟩ := ih
    obtain ⟨batch, hbatch, hcovered'⟩ := hcovered.run hids hrun older (holder k) tie
    exact ⟨_, hrounds.succ hbatch, hcovered'⟩

end covered

/-! ### The result -/

/-- Every eligible payment with a final answer has been moved to the status of the answer. -/
def AllMoved (answer : Uuid → ProviderAnswer) (s s' : State P) : Prop :=
  ∀ payment ∈ s.db.payments, isEligible s.clock payment = true →
    ∀ status, (answer payment.id).final = some status →
      ∃ row, s'.db.payment? payment.id = some row ∧ row.status = status

theorem DbCovered.payment? {s s' : State P} {answer : Uuid → ProviderAnswer} {done : Uuid → Bool}
    (h : DbCovered answer s done s') (hids : (s.db.payments.map (·.id)).Nodup) {payment : Payment}
    (hmem : payment ∈ s.db.payments) :
    ∃ row, s'.db.payment? payment.id = some row ∧ RowCovered answer s done payment row := by
  obtain ⟨f, hrows, hf⟩ := h.rows
  refine ⟨f payment, ?_, hf payment hmem⟩
  rw [← (hf payment hmem).id]
  exact find?_key_of_mem (h.ids ▸ hids) (hrows ▸ List.mem_map_of_mem hmem)

theorem DbCovered.moved_iff {s s' : State P} {answer : Uuid → ProviderAnswer} {done : Uuid → Bool}
    (h : DbCovered answer s done s') (hids : (s.db.payments.map (·.id)).Nodup) :
    AllMoved answer s s' ↔ ∀ payment ∈ s.db.payments, isEligible s.clock payment = true →
      hasFinal answer payment.id = true → done payment.id = true := by
  constructor
  · intro hall payment hmem hel hfinal
    obtain ⟨status, hstatus⟩ := Option.isSome_iff_exists.mp hfinal
    obtain ⟨row, hrow, hst⟩ := hall payment hmem hel status hstatus
    obtain ⟨row', hrow', hcovered⟩ := h.payment? hids hmem
    obtain rfl := Option.some.inj (hrow.symm.trans hrow')
    by_contra hd
    rw [hcovered.same hel (Bool.eq_false_iff.mpr hd), (isEligible_iff.mp hel).1] at hst
    exact final_ne_processing (hstatus.trans (congrArg some hst.symm))
  · intro hdone payment hmem hel status hstatus
    obtain ⟨row, hrow, hcovered⟩ := h.payment? hids hmem
    have hd := hdone payment hmem hel (by simp [hasFinal, hstatus])
    exact ⟨row, hrow, Option.some.inj ((hcovered.moved hel hd).trans hstatus)⟩

/-- The worst order of payments that were updated at the same time: first those without a final
answer. -/
def undecidedFirst (answer : Uuid → ProviderAnswer) (id : Uuid) : ℕ :=
  if hasFinal answer id then 1 else 0

/-- The eligible payments in the worst order. -/
def worstOrder (answer : Uuid → ProviderAnswer) (s : State P) : List Payment :=
  eligible (undecidedFirst answer) s.clock s.db

/-- Every payment with a final answer is among the first ones that `k` runs reach, when every payment
whose answer is not final takes one of the 100 places of each run after its first lookup. -/
def AllReached (answer : Uuid → ProviderAnswer) (s : State P) (k : ℕ) : Prop :=
  ∀ (i : ℕ) payment, (worstOrder answer s)[i]? = some payment →
    hasFinal answer payment.id = true →
      i < reached 100 (fun p => hasFinal answer p.id) (worstOrder answer s) k

section result

variable {answer : Uuid → ProviderAnswer} {ties : ℕ → Uuid → ℕ} {s s' : State P} {k : ℕ}

theorem worstOrder_sorted : (worstOrder answer s).Pairwise
    (UndecidedFirst (·.updatedAt) fun p => hasFinal answer p.id) := by
  have htotal := timeOrder_total (fun p : Payment => p.updatedAt) (fun p => p.id)
    (undecidedFirst answer)
  have htrans := timeOrder_trans (fun p : Payment => p.updatedAt) (fun p => p.id)
    (undecidedFirst answer)
  have hsorted : (worstOrder answer s).Pairwise
      (timeOrder (·.updatedAt) (·.id) (undecidedFirst answer)) := List.pairwise_insertionSort _ _
  refine hsorted.imp fun {a b} hab => ?_
  rcases hab with hlt | ⟨he, hle⟩
  · exact Or.inl hlt
  · refine Or.inr ⟨he, fun hfinal => ?_⟩
    unfold undecidedFirst at hle
    rw [if_pos hfinal] at hle
    by_contra hnot
    rw [if_neg hnot] at hle
    omega

/-- Whatever the order of payments that were updated at the same time, what is reached in the worst
order is moved. -/
theorem ConsecutiveRuns.moved_of_reached (hruns : ConsecutiveRuns answer ties s k s')
    (hids : (s.db.payments.map (·.id)).Nodup) (hreach : AllReached answer s k) :
    AllMoved answer s s' := by
  have hstrict : ∀ i (a b : Payment), b.updatedAt < a.updatedAt →
      ¬ timeOrder (·.updatedAt) (·.id) (ties i) a b := by
    rintro i a b hlt (h | ⟨h, -⟩)
    · exact Nat.lt_asymm hlt h
    · exact Nat.ne_of_gt hlt h
  obtain ⟨done, hrounds, hcovered⟩ := hruns.rounds hids
    (fun b a => b.updatedAt < a.updatedAt) hstrict (undecidedFirst answer)
  refine (hcovered.moved_iff hids).mpr fun payment hmem hel hfinal => ?_
  exact hrounds.all_done worstOrder_sorted hreach payment (mem_eligible.mpr ⟨hmem, hel⟩) hfinal

/-- The place in the worst order. -/
def worstPlace (answer : Uuid → ProviderAnswer) (s : State P) (id : Uuid) : ℕ :=
  ((worstOrder answer s).map (·.id)).idxOf id

theorem ConsecutiveRuns.reached_of_moved
    (hruns : ConsecutiveRuns answer (fun _ => worstPlace answer s) s k s')
    (hids : (s.db.payments.map (·.id)).Nodup) (hall : AllMoved answer s s') :
    AllReached answer s k := by
  obtain ⟨done, hrounds, hcovered⟩ := hruns.rounds hids
    (fun b a => ¬ timeOrder (·.updatedAt) (·.id) (worstPlace answer s) a b)
    (fun _ a b hold => hold) (undecidedFirst answer)
  have hn : ((worstOrder answer s).map (·.id)).Nodup := eligible_ids hids _ s.clock
  have hold : (worstOrder answer s).Pairwise
      fun b a => ¬ timeOrder (·.updatedAt) (·.id) (worstPlace answer s) a b := by
    refine List.pairwise_iff_getElem.mpr fun i j hi hj hij => ?_
    have hplace : ∀ (i : ℕ) (hi : i < (worstOrder answer s).length),
        worstPlace answer s (worstOrder answer s)[i].id = i := fun i hi => by
      have hplace := hn.idxOf_getElem i (by simpa using hi)
      rwa [List.getElem_map] at hplace
    have htimes : (worstOrder answer s)[i].updatedAt ≤ (worstOrder answer s)[j].updatedAt := by
      rcases List.pairwise_iff_getElem.mp worstOrder_sorted i j hi hj hij with hlt | ⟨he, -⟩
      · exact Nat.le_of_lt hlt
      · exact Nat.le_of_eq he
    rintro (hlt | ⟨-, hle⟩)
    · exact absurd htimes (Nat.not_le_of_lt hlt)
    · rw [hplace i hi, hplace j hj] at hle
      omega
  intro i payment hi hfinal
  by_contra hnot
  have hmem := List.mem_of_getElem? hi
  obtain ⟨hrow, hel⟩ := mem_eligible.mp hmem
  have hdone := (hcovered.moved_iff hids).mp hall payment hrow hel hfinal
  have htake := hrounds.mem_take hold hn.of_map payment hmem hdone
  refine List.disjoint_take_drop hn.of_map (Nat.le_of_not_lt hnot) htake
    (List.mem_of_getElem? (i := 0) ?_)
  rw [List.getElem?_drop, Nat.add_zero]
  exact hi

/-- **Main result.** Of `n` eligible payments, those with a final answer are all moved by `⌈n / 100⌉`
runs, whatever the order of payments that were updated at the same time, if and only if the runs
reach them in the worst order. -/
theorem allMoved_iff {s : State P} (answer : Uuid → ProviderAnswer) (hidle : Idle s)
    (hids : (s.db.payments.map (·.id)).Nodup) :
    (∀ ties, ∃ s', ConsecutiveRuns answer ties s (((worstOrder answer s).length + 99) / 100) s') ∧
    ((∀ ties s', ConsecutiveRuns answer ties s (((worstOrder answer s).length + 99) / 100) s' →
      AllMoved answer s s') ↔ AllReached answer s (((worstOrder answer s).length + 99) / 100)) := by
  have hexists := fun ties => ConsecutiveRuns.exists answer ties hidle
    (((worstOrder answer s).length + 99) / 100)
  refine ⟨fun ties => ?_, fun hall => ?_, fun hreach ties s' hruns =>
    hruns.moved_of_reached hids hreach⟩
  · obtain ⟨s', hruns, -⟩ := hexists ties
    exact ⟨s', hruns⟩
  · obtain ⟨s', hruns, -⟩ := hexists fun _ => worstPlace answer s
    exact hruns.reached_of_moved hids (hall _ s' hruns)

end result

/-! ### Examples -/

/-- A table of `n` payments that wait. -/
def waitingTable (n : ℕ) (time : ℕ → ℕ) : State examplePlatform where
  db := { Db.empty with
    payments := (List.range n).map fun i => { waitingPayment i with updatedAt := time i } }
  world := ⟨[]⟩
  clock := 20 * second
  procs := []

theorem waitingTable_idle (n : ℕ) (time : ℕ → ℕ) : Idle (waitingTable n time) :=
  fun p hp => by cases hp

theorem waitingTable_ids (n : ℕ) (time : ℕ → ℕ) :
    ((waitingTable n time).db.payments.map (·.id)).Nodup := by
  have hinjective : Function.Injective exampleUuid := fun i j h =>
    Nat.add_left_cancel (Uuid.mk.inj h)
  unfold waitingTable
  rw [List.map_map]
  exact List.nodup_range.map hinjective

/-- The provider is still processing every tenth payment. -/
def tenthProcessing (id : Uuid) : ProviderAnswer :=
  if (id.value - (exampleUuid 0).value) % 10 = 0 then .processing else .succeeded

/-- Of 150 payments, 50 each updated at the same time, two runs move those that have succeeded. -/
theorem allMoved_two : ∃ s' : State examplePlatform,
    AllMoved tenthProcessing (waitingTable 150 (· / 50)) s' := by
  have hlength : (worstOrder tenthProcessing (waitingTable 150 (· / 50))).length = 150 := by
    decide +kernel
  have hreached : reached 100 (fun p => hasFinal tenthProcessing p.id)
      (worstOrder tenthProcessing (waitingTable 150 (· / 50))) 2 = 190 := by
    decide +kernel
  obtain ⟨hexists, hiff⟩ := allMoved_iff tenthProcessing (waitingTable_idle 150 (· / 50))
    (waitingTable_ids 150 _)
  rw [hlength] at hexists hiff
  obtain ⟨s', hruns⟩ := hexists fun _ _ => 0
  refine ⟨s', hiff.mpr (fun i payment hi _ => ?_) _ s' hruns⟩
  have hlt := (List.getElem?_eq_some_iff.mp hi).1
  rw [hlength] at hlt
  show i < reached _ _ _ 2
  rw [hreached]
  omega

/-- All but the payment 100 are still processed by the provider. -/
def onlyLastSucceeded (id : Uuid) : ProviderAnswer :=
  if id = exampleUuid 100 then .succeeded else .processing

/-- **Payments that are not decided hide the others.** The provider is still processing the 100
oldest payments, so that they are looked up again in the second run, and the payment after them,
which has succeeded, is not moved. -/
theorem allMoved_fails : ∃ (ties : ℕ → Uuid → ℕ) (s' : State examplePlatform),
    ConsecutiveRuns onlyLastSucceeded ties (waitingTable 101 id)
      (((worstOrder onlyLastSucceeded (waitingTable 101 id)).length + 99) / 100) s' ∧
    ¬ AllMoved onlyLastSucceeded (waitingTable 101 id) s' := by
  have hlength : (worstOrder onlyLastSucceeded (waitingTable 101 id)).length = 101 := by
    decide +kernel
  have hreached : reached 100 (fun p => hasFinal onlyLastSucceeded p.id)
      (worstOrder onlyLastSucceeded (waitingTable 101 id)) 2 = 100 := by
    decide +kernel
  have hlast : ((worstOrder onlyLastSucceeded (waitingTable 101 id))[100]?).map (·.id) =
      some (exampleUuid 100) := by
    decide +kernel
  obtain ⟨payment, hi, hid⟩ := Option.map_eq_some_iff.mp hlast
  rw [hlength]
  obtain ⟨s', hruns, -⟩ := ConsecutiveRuns.exists onlyLastSucceeded
    (fun _ => worstPlace onlyLastSucceeded (waitingTable 101 id)) (waitingTable_idle 101 id) 2
  refine ⟨_, s', hruns, fun hall => ?_⟩
  have hlt := hruns.reached_of_moved (waitingTable_ids 101 id) hall 100 payment hi
    (by rw [hid]; decide +kernel)
  rw [hreached] at hlt
  exact Nat.lt_irrefl 100 hlt

end Payflow.Safety
