import Payflow.Lib.Exposition
import Payflow.Model.Metrics

/-! # The page of the metrics

The page of `business_metrics` is in the format that a scraper reads, and it reads the counts back. -/

namespace Payflow.Spec

open Payflow.Lib Payflow.Model

/-! ### The lines -/

def paymentsTotal : String := "payment_gateway_payments_total"
def refundsTotal : String := "payment_gateway_refunds_total"
def paymentRetriesTotal : String := "payment_gateway_payment_retries_total"
def refundRetriesTotal : String := "payment_gateway_refund_retries_total"
def refundedAmountTotal : String := "payment_gateway_refunded_amount_cents_total"
def outboxEventsTotal : String := "payment_gateway_outbox_events_total"

/-- The names that the page has. -/
def metricNames : List String :=
  [paymentsTotal, refundsTotal, paymentRetriesTotal, refundRetriesTotal, refundedAmountTotal,
    outboxEventsTotal]

/-- The two lines before the samples of a name. -/
def headLines (name help : String) : List Line :=
  [.comment (" HELP " ++ name ++ " " ++ help).toList, .comment (" TYPE " ++ name ++ " gauge").toList]

/-- The label of a status. -/
def statusLabel (text : String) : List Char := ("status=\"" ++ text ++ "\"").toList

/-- The sample of a status. -/
def statusSample {σ : Type} (name : String) (text : σ → String) (row : σ × ℕ) : Sample :=
  ⟨name.toList, statusLabel (text row.1), row.2⟩

/-- The sample of a total. -/
def totalSample (name : String) (n : ℕ) : Sample := ⟨name.toList, [], n⟩

/-- The page, line by line. -/
def linesOf (c : BusinessCounts) : List Line :=
  headLines paymentsTotal "Payments grouped by current status." ++
  c.paymentCounts.map (fun row => .sample (statusSample paymentsTotal PaymentStatus.text row)) ++
  headLines refundsTotal "Refunds grouped by current status." ++
  c.refundCounts.map (fun row => .sample (statusSample refundsTotal RefundStatus.text row)) ++
  headLines paymentRetriesTotal "Total payment retry attempts." ++
  [.sample (totalSample paymentRetriesTotal c.paymentRetryTotal)] ++
  headLines refundRetriesTotal "Total refund retry attempts." ++
  [.sample (totalSample refundRetriesTotal c.refundRetryTotal)] ++
  headLines refundedAmountTotal "Total successfully refunded amount in cents." ++
  [.sample (totalSample refundedAmountTotal c.successfulRefundAmount)] ++
  headLines outboxEventsTotal "Outbox events grouped by status." ++
  c.outboxCounts.map (fun row => .sample (statusSample outboxEventsTotal OutboxStatus.text row))

/-- The samples of a status column. -/
def statusFamily {σ : Type} (name : String) (text : σ → String) (rows : List (σ × ℕ)) : Family :=
  ⟨name.toList, rows.map fun row => (statusLabel (text row.1), row.2)⟩

/-- The one sample of a total. -/
def totalFamily (name : String) (n : ℕ) : Family := ⟨name.toList, [([], n)]⟩

/-- The samples of the page, by their names. -/
def familiesOf (c : BusinessCounts) : List Family :=
  [statusFamily paymentsTotal PaymentStatus.text c.paymentCounts,
    statusFamily refundsTotal RefundStatus.text c.refundCounts,
    totalFamily paymentRetriesTotal c.paymentRetryTotal,
    totalFamily refundRetriesTotal c.refundRetryTotal,
    totalFamily refundedAmountTotal c.successfulRefundAmount,
    statusFamily outboxEventsTotal OutboxStatus.text c.outboxCounts]

/-- The samples of the page. -/
def samplesOf (c : BusinessCounts) : List Sample := (familiesOf c).flatMap Family.all

theorem toList_toString (n : ℕ) : (toString n).toList = Nat.toDigits 10 n := Nat.toList_repr

/-- Lines of the source that are lines of the page. -/
def Writes (lines : List String) (page : List Line) : Prop :=
  lines.map String.toList = page.map Line.text

theorem Writes.append {xs xs' : List String} {ys ys' : List Line} (h : Writes xs ys)
    (h' : Writes xs' ys') : Writes (xs ++ xs') (ys ++ ys') := by
  unfold Writes at *
  rw [List.map_append, List.map_append, h, h']

theorem writes_status {σ : Type} (name : String) (text : σ → String) (rows : List (σ × ℕ)) :
    Writes (rows.map (statusLine name text))
      (rows.map fun row => .sample (statusSample name text row)) := by
  unfold Writes
  rw [List.map_map, List.map_map]
  refine List.map_congr_left fun row _ => ?_
  rw [Function.comp_apply, Function.comp_apply, Line.text_sample]
  unfold statusLine Line.labelText statusSample statusLabel
  rw [if_neg (by simp)]
  simp

theorem writes_total {line name : String} (h : line.toList = name.toList ++ [' ']) (n : ℕ) :
    Writes [line ++ toString n] [.sample (totalSample name n)] := by
  unfold Writes
  rw [List.map_singleton, List.map_singleton, Line.text_sample, String.toList_append, h,
    toList_toString, List.append_assoc]
  rfl

instance (xs : List String) (ys : List Line) : Decidable (Writes xs ys) :=
  inferInstanceAs (Decidable (_ = _))

theorem writes_lines (c : BusinessCounts) : Writes c.lines (linesOf c) := by
  refine .append (.append ?_ (by decide +kernel)) (writes_status _ _ _)
  refine .append (.append ?_ (by decide +kernel)) (writes_total (by decide +kernel) _)
  refine .append (.append ?_ (by decide +kernel)) (writes_total (by decide +kernel) _)
  refine .append (.append ?_ (by decide +kernel)) (writes_total (by decide +kernel) _)
  refine .append (.append ?_ (by decide +kernel)) (writes_status _ _ _)
  exact .append (by decide +kernel) (writes_status _ _ _)

theorem toList_intercalate : ∀ {lines : List String}, lines ≠ [] →
    (String.intercalate "\n" lines ++ "\n").toList =
      (lines.map String.toList).flatMap fun l => l ++ ['\n']
  | [], h => absurd rfl h
  | [l], _ => by
    rw [String.intercalate_singleton]
    simp
  | l :: l' :: lines, _ => by
    have ih := toList_intercalate (List.cons_ne_nil l' lines)
    rw [String.intercalate_cons_cons]
    simp only [String.toList_append] at ih ⊢
    rw [List.append_assoc, ih, List.map_cons, List.flatMap_cons]
    rfl

theorem toList_businessMetrics (D₁ D₂ D₃ D₄ D₅ : Db) (outbox : List OutboxEvent) :
    (businessMetrics D₁ D₂ D₃ D₄ D₅ outbox).toList =
      (linesOf (businessCounts D₁ D₂ D₃ D₄ D₅ outbox)).flatMap fun l => l.text ++ ['\n'] := by
  unfold businessMetrics
  rw [toList_intercalate (by simp [BusinessCounts.lines]), writes_lines, List.flatMap_map]

/-! ### The page is read back -/

theorem isNameLetter_of_mem {name : String} (h : name ∈ metricNames) :
    name.toList ≠ [] ∧ ∀ c ∈ name.toList, isNameLetter c = true := by
  have hall : (metricNames.all fun name =>
      !name.toList.isEmpty && name.toList.all isNameLetter) = true := by
    decide +kernel
  obtain ⟨hne, hletters⟩ := (Bool.and_eq_true _ _).mp (List.all_eq_true.mp hall name h)
  refine ⟨fun hnil => ?_, List.all_eq_true.mp hletters⟩
  rw [hnil] at hne
  cases hne

theorem fit_status {σ : Type} {name : String} {text : σ → String} {rows : List (σ × ℕ)}
    (hname : name ∈ metricNames)
    (htext : ∀ v, '\x7d' ∉ statusLabel (text v) ∧ '\n' ∉ statusLabel (text v)) :
    ∀ l ∈ rows.map (fun row => Line.sample (statusSample name text row)), l.Fit := by
  intro l hl
  obtain ⟨row, -, rfl⟩ := List.mem_map.mp hl
  obtain ⟨hne, hletters⟩ := isNameLetter_of_mem hname
  exact ⟨hne, hletters, htext row.1⟩

theorem fit_total {name : String} (hname : name ∈ metricNames) (n : ℕ) :
    ∀ l ∈ [Line.sample (totalSample name n)], l.Fit := by
  intro l hl
  obtain rfl := List.mem_singleton.mp hl
  obtain ⟨hne, hletters⟩ := isNameLetter_of_mem hname
  exact ⟨hne, hletters, List.not_mem_nil, List.not_mem_nil⟩

theorem fit_head {name help : String}
    (h : '\n' ∉ (" HELP " ++ name ++ " " ++ help).toList ∧ '\n' ∉ (" TYPE " ++ name ++ " gauge").toList) :
    ∀ l ∈ headLines name help, l.Fit := by
  intro l hl
  rcases List.mem_cons.mp hl with rfl | hl
  · exact h.1
  · obtain rfl := List.mem_singleton.mp hl
    exact h.2

theorem fit_linesOf (c : BusinessCounts) : ∀ l ∈ linesOf c, l.Fit := by
  have hpayment : ∀ v : PaymentStatus, '\x7d' ∉ statusLabel v.text ∧ '\n' ∉ statusLabel v.text := by
    intro v
    cases v <;> simp [statusLabel, PaymentStatus.text]
  have hrefund : ∀ v : RefundStatus, '\x7d' ∉ statusLabel v.text ∧ '\n' ∉ statusLabel v.text := by
    intro v
    cases v <;> simp [statusLabel, RefundStatus.text]
  have houtbox : ∀ v : OutboxStatus, '\x7d' ∉ statusLabel v.text ∧ '\n' ∉ statusLabel v.text := by
    intro v
    cases v <;> simp [statusLabel, OutboxStatus.text]
  have happend : ∀ {xs ys zs : List Line}, (∀ l ∈ xs, l.Fit) → (∀ l ∈ ys, l.Fit) →
      (∀ l ∈ zs, l.Fit) → ∀ l ∈ xs ++ ys ++ zs, l.Fit := fun hx hy hz =>
    List.forall_mem_append.mpr ⟨List.forall_mem_append.mpr ⟨hx, hy⟩, hz⟩
  unfold linesOf
  refine happend ?_ (fit_head (by decide +kernel)) (fit_status (by simp [metricNames]) houtbox)
  refine happend ?_ (fit_head (by decide +kernel)) (fit_total (by simp [metricNames]) _)
  refine happend ?_ (fit_head (by decide +kernel)) (fit_total (by simp [metricNames]) _)
  refine happend ?_ (fit_head (by decide +kernel)) (fit_total (by simp [metricNames]) _)
  refine happend ?_ (fit_head (by decide +kernel)) (fit_status (by simp [metricNames]) hrefund)
  exact List.forall_mem_append.mpr
    ⟨fit_head (by decide +kernel), fit_status (by simp [metricNames]) hpayment⟩

/-- Lines of the page with these samples. -/
def Carried (page : List Line) (xs : List Sample) : Prop := page.filterMap Line.sample? = xs

section holds

variable {page : List Line} {xs : List Sample} {name : String}

theorem Carried.head (h : Carried page xs) (help : String) : Carried (page ++ headLines name help) xs := by
  unfold Carried at *
  rw [List.filterMap_append, h]
  exact List.append_nil xs

theorem Carried.total (h : Carried page xs) (n : ℕ) :
    Carried (page ++ [.sample (totalSample name n)]) (xs ++ (totalFamily name n).all) := by
  unfold Carried at *
  rw [List.filterMap_append, h]
  rfl

theorem Carried.status {σ : Type} (h : Carried page xs) (text : σ → String) (rows : List (σ × ℕ)) :
    Carried (page ++ rows.map fun row => .sample (statusSample name text row))
      (xs ++ (statusFamily name text rows).all) := by
  unfold Carried at *
  rw [List.filterMap_append, h, List.filterMap_map]
  unfold statusFamily Family.all
  rw [List.map_map]
  exact congrArg (xs ++ ·) (congrFun List.filterMap_eq_map rows)

end holds

theorem carried_linesOf (c : BusinessCounts) : Carried (linesOf c) (samplesOf c) := by
  have hstart : Carried (headLines paymentsTotal "Payments grouped by current status.") [] := rfl
  have hsamples : samplesOf c = [] ++ (statusFamily paymentsTotal PaymentStatus.text c.paymentCounts).all ++
      (statusFamily refundsTotal RefundStatus.text c.refundCounts).all ++
      (totalFamily paymentRetriesTotal c.paymentRetryTotal).all ++
      (totalFamily refundRetriesTotal c.refundRetryTotal).all ++
      (totalFamily refundedAmountTotal c.successfulRefundAmount).all ++
      (statusFamily outboxEventsTotal OutboxStatus.text c.outboxCounts).all := by
    unfold samplesOf familiesOf
    simp only [List.flatMap_cons, List.flatMap_nil, List.append_nil, List.nil_append,
      List.append_assoc]
  rw [hsamples]
  unfold linesOf
  refine .status (.head ?_ _) _ _
  refine .total (.head ?_ _) _
  refine .total (.head ?_ _) _
  refine .total (.head ?_ _) _
  refine .status (.head ?_ _) _ _
  exact hstart.status _ _

/-- **A scraper reads the samples of the page.** -/
theorem readExposition_businessMetrics (D₁ D₂ D₃ D₄ D₅ : Db) (outbox : List OutboxEvent) :
    readExposition (businessMetrics D₁ D₂ D₃ D₄ D₅ outbox).toList =
      some (samplesOf (businessCounts D₁ D₂ D₃ D₄ D₅ outbox)) := by
  rw [toList_businessMetrics, readExposition_lines (fit_linesOf _), carried_linesOf]

/-! ### The counts -/

section counts

variable {α σ : Type} [DecidableEq σ] {values : List σ} {status : α → σ}

theorem nodup_countByStatus (hn : values.Nodup) (rows : List α) :
    ((countByStatus values status rows).map (·.1)).Nodup := by
  have hsub : ((countByStatus values status rows).map (·.1)).Sublist values := by
    have h := (List.filter_sublist (p := fun x : σ × ℕ => decide (x.2 ≠ 0))
      (l := values.map fun v => (v, rows.countP fun row => status row = v))).map (·.1)
    rwa [List.map_map, List.map_id''] at h
    exact fun _ => rfl
  exact hn.sublist hsub

theorem total_countByStatus (hn : values.Nodup) {v : σ} (hv : v ∈ values) (rows : List α) :
    total (fun x => x.1 = v) (·.2) (countByStatus values status rows) =
      rows.countP fun row => status row = v := by
  unfold countByStatus
  rw [total_filter_ne_zero, total_map]
  exact total_key hn hv

theorem sum_countByStatus (hn : values.Nodup) (hall : ∀ v, v ∈ values) : ∀ rows : List α,
    total (fun _ => true) (·.2) (countByStatus values status rows) = rows.length := by
  intro rows
  unfold countByStatus
  rw [total_filter_ne_zero, total_map]
  induction rows with
  | nil => simp [total]
  | cons row rows ih =>
    have hone : total (fun _ => true) (fun v => if decide (v = status row) = true then 1 else 0)
        values = 1 := by
      rw [total_ite]
      exact total_key hn (hall _)
    calc total (fun _ => true) (fun v => (row :: rows).countP fun row => status row = v) values
        = total (fun _ => true) (fun v => (rows.countP fun row => status row = v) +
            if decide (v = status row) = true then 1 else 0) values := by
          refine congrArg (fun col => total _ col values) (funext fun v => ?_)
          rw [List.countP_cons]
          simp only [eq_comm]
      _ = rows.length + 1 := by rw [total_add, hone, ih]

end counts

/-! ### The series -/

theorem statusLabel_inj {s t : String} (h : statusLabel s = statusLabel t) : s = t := by
  unfold statusLabel at h
  simp only [String.toList_append] at h
  exact String.toList_inj.mp (List.append_cancel_left (List.append_cancel_right h))

theorem paymentText_inj {v w : PaymentStatus} (h : v.text = w.text) : v = w := by
  cases v <;> cases w <;> simp [PaymentStatus.text] at h ⊢

theorem refundText_inj {v w : RefundStatus} (h : v.text = w.text) : v = w := by
  cases v <;> cases w <;> simp [RefundStatus.text] at h ⊢

theorem outboxText_inj {v w : OutboxStatus} (h : v.text = w.text) : v = w := by
  cases v <;> cases w <;> simp [OutboxStatus.text] at h ⊢

section series

variable {σ α : Type} [DecidableEq σ] {name : String} {text : σ → String} {values : List σ}
  {status : α → σ}

theorem nodup_statusFamily (htext : ∀ {v w}, text v = text w → v = w) (hn : values.Nodup)
    (rows : List α) : ((statusFamily name text (countByStatus values status rows)).samples.map
      (·.1)).Nodup := by
  unfold statusFamily
  rw [List.map_map]
  have hmap : (((countByStatus values status rows).map (·.1)).map fun v =>
      statusLabel (text v)).Nodup :=
    (nodup_countByStatus hn rows).map fun v w he => htext (statusLabel_inj he)
  rwa [List.map_map] at hmap

variable (name) in
theorem total_statusFamily (htext : ∀ {v w}, text v = text w → v = w) (hn : values.Nodup) {v : σ}
    (hv : v ∈ values) (rows : List α) : total (fun x => x.1 = statusLabel (text v)) (·.2)
      (statusFamily name text (countByStatus values status rows)).samples =
        rows.countP fun row => status row = v := by
  unfold statusFamily
  rw [total_map, ← total_countByStatus hn hv]
  refine congrArg (fun sel => total sel _ _) (funext fun x => ?_)
  exact decide_eq_decide.mpr ⟨fun he => htext (statusLabel_inj he), fun he => by rw [he]⟩

variable (name text) in
theorem sum_statusFamily (hn : values.Nodup) (hall : ∀ v, v ∈ values) (rows : List α) :
    total (fun _ => true) (·.2)
      (statusFamily name text (countByStatus values status rows)).samples = rows.length := by
  unfold statusFamily
  rw [total_map]
  exact sum_countByStatus hn hall rows

end series

section values

variable {σ α : Type} [DecidableEq σ] {name : String} {text : σ → String} {values : List σ}
  {status : α → σ} {rows : List α} {fs : List Family}

theorem valueOf_status (h : Distinct fs)
    (hf : statusFamily name text (countByStatus values status rows) ∈ fs)
    (htext : ∀ {v w}, text v = text w → v = w) (hn : values.Nodup) {v : σ} (hv : v ∈ values) :
    valueOf (fs.flatMap Family.all) name.toList (statusLabel (text v)) =
      rows.countP fun row => status row = v := by
  rw [← total_statusFamily name htext hn hv rows]
  exact h.valueOf hf _

theorem sumOf_status (h : Distinct fs)
    (hf : statusFamily name text (countByStatus values status rows) ∈ fs) (hn : values.Nodup)
    (hall : ∀ v, v ∈ values) : sumOf (fs.flatMap Family.all) name.toList = rows.length := by
  rw [← sum_statusFamily name text hn hall rows]
  exact h.sumOf hf

theorem valueOf_total (h : Distinct fs) {n : ℕ} (hf : totalFamily name n ∈ fs) :
    valueOf (fs.flatMap Family.all) name.toList [] = n := by
  have hvalue : valueOf (fs.flatMap Family.all) name.toList [] =
      total (fun x => x.1 = []) (·.2) [(([] : List Char), n)] := h.valueOf hf []
  rw [hvalue]
  simp [total]

end values

theorem names_nodup : [paymentsTotal.toList, refundsTotal.toList, paymentRetriesTotal.toList,
    refundRetriesTotal.toList, refundedAmountTotal.toList, outboxEventsTotal.toList].Nodup := by
  have hnames : metricNames.Nodup := by
    simp [metricNames, paymentsTotal, refundsTotal, paymentRetriesTotal, refundRetriesTotal,
      refundedAmountTotal, outboxEventsTotal]
  exact hnames.map fun _ _ => String.toList_inj.mp

theorem paymentValues_nodup : PaymentStatus.values.Nodup := by decide

theorem refundValues_nodup : RefundStatus.values.Nodup := by decide

theorem outboxValues_nodup : OutboxStatus.values.Nodup := by decide

theorem mem_paymentValues (v : PaymentStatus) : v ∈ PaymentStatus.values := by cases v <;> decide

theorem mem_refundValues (v : RefundStatus) : v ∈ RefundStatus.values := by cases v <;> decide

theorem mem_outboxValues (v : OutboxStatus) : v ∈ OutboxStatus.values := by cases v <;> decide

section page

variable (D₁ D₂ D₃ D₄ D₅ : Db) (outbox : List OutboxEvent)

theorem distinct_familiesOf : Distinct (familiesOf (businessCounts D₁ D₂ D₃ D₄ D₅ outbox)) := by
  refine ⟨?_, fun f hf => ?_⟩
  · unfold familiesOf statusFamily totalFamily
    simp only [List.map_cons, List.map_nil]
    exact names_nodup
  have htotal : ∀ name n, ((totalFamily name n).samples.map (·.1)).Nodup :=
    fun _ _ => List.nodup_singleton _
  unfold familiesOf businessCounts at hf
  simp only [List.mem_cons, List.not_mem_nil, or_false] at hf
  rcases hf with rfl | rfl | rfl | rfl | rfl | rfl
  · exact nodup_statusFamily paymentText_inj paymentValues_nodup _
  · exact nodup_statusFamily refundText_inj refundValues_nodup _
  · exact htotal _ _
  · exact htotal _ _
  · exact htotal _ _
  · exact nodup_statusFamily outboxText_inj outboxValues_nodup _

end page

end Payflow.Spec
