import Payflow.Safety.RetryCounters

/-! # One attempt

What an execution of `process_payment` or `process_refund` that is alone does to the counters, by
the outcome of its request to the provider. -/

namespace Payflow.Safety

open Payflow.Lib Payflow.Model Payflow.Spec

-- the reason of a retry is any text: nothing is gained by looking into it
attribute [local irreducible] firstTwoHundred

/-! ### How it ends -/

/-- The outcome of the request, if the action is one to the provider. -/
def outcome? : Sigma ERes → Option HttpOutcome
  | ⟨.postPayment _ _, out⟩ | ⟨.postRefund _ _, out⟩ => some out
  | _ => none

/-- A timeout, a network error, or a status code from 500 on. -/
def isTransient : HttpOutcome → Bool
  | .timeoutException | .networkError => true
  | .otherError _ => false
  | .response statusCode _ _ => decide (statusCode ≥ 500)

/-- What `response.json()` raises is no error of the client. -/
def Genuine : HttpOutcome → Prop
  | .response _ _ (.error e) => isProviderError e = false
  | _ => True

/-- How an attempt ends that finds both counters at `k`: the external actions, and the database
after it. -/
inductive AttemptEnds (m retries : ℕ) (T : Task) (k : ℕ) (D : Db) : List (Sigma ERes) → Prop
  | again {a out} : outcome? a = some out → isTransient out = true → retries < m →
      Counts D T (k + 1) → Processing D T →
      AttemptEnds m retries T k D [a, ⟨.sendRetry T (retries + 1), true⟩]
  | refused {a out} : outcome? a = some out → isTransient out = true → retries < m →
      Counts D T (k + 1) → AttemptEnds m retries T k D [a, ⟨.sendRetry T (retries + 1), false⟩]
  | exhausted {a out} : outcome? a = some out → isTransient out = true → m ≤ retries →
      Counts D T (k + 1) → AttemptEnds m retries T k D [a]
  | answered {a out} : outcome? a = some out → isTransient out = false → Counts D T k →
      AttemptEnds m retries T k D [a]
  | unasked : (∀ p s, T ≠ .processPayment p s) → Counts D T k → AttemptEnds m retries T k D []

/-- How the `try` block ends, after how many external actions of the trace. -/
inductive TryEnds (T : Task) (k : ℕ) (tr : List (Sigma ERes)) (D : Db) :
    Except Exn TaskResult → ℕ → Prop
  | transient {a out message} : tr[0]? = some a → outcome? a = some out → isTransient out = true →
      hasNul (firstTwoHundred message) = false → Counts D T k → Processing D T →
      TryEnds T k tr D (.error (.transientProviderError message)) 1
  | answered {a out res} : tr[0]? = some a → outcome? a = some out → isTransient out = false →
      (∀ message, res ≠ .error (.transientProviderError message)) → Counts D T k →
      TryEnds T k tr D res 1
  | unasked {res} : (∀ p s, T ≠ .processPayment p s) →
      (∀ message, res ≠ .error (.transientProviderError message)) → Counts D T k →
      TryEnds T k tr D res 0

section response

variable {transient : String} {unavailable : ℕ → String} {rejected : ℕ → String → String}
  {out : HttpOutcome}

theorem providerResponse_transient (h : isTransient out = true)
    (ht : hasNul (firstTwoHundred transient) = false)
    (hu : ∀ n, hasNul (firstTwoHundred (unavailable n)) = false) :
    ∃ message, hasNul (firstTwoHundred message) = false ∧
      providerResponse transient unavailable rejected out =
        .raise (.transientProviderError message) := by
  cases out with
  | timeoutException | networkError => exact ⟨_, ht, rfl⟩
  | otherError name => cases h
  | response statusCode text json =>
    exact ⟨_, hu statusCode, providerResponse_unavailable (of_decide_eq_true h)⟩

theorem providerResponse_answered (h : isTransient out = false) (hout : Genuine out) :
    ∃ x, (∀ message, x ≠ .error (.transientProviderError message)) ∧
      providerResponse transient unavailable rejected out = .ofExcept x := by
  cases out with
  | timeoutException | networkError => cases h
  | otherError name => exact ⟨.error (.httpxError name), nofun, rfl⟩
  | response statusCode text json =>
    have h₅ : ¬ statusCode ≥ 500 := of_decide_eq_false h
    by_cases h₄ : statusCode ≥ 400
    · exact ⟨.error (.permanentProviderError (rejected statusCode text)), nofun,
        providerResponse_rejected h₅ h₄⟩
    · refine ⟨json, fun message he => ?_, providerResponse_ok h₄⟩
      subst he
      cases hout

end response

section attempt

variable {P : Platform} {m retries pid k : ℕ} {T : Task} {tr : List (Sigma ERes)}
  {a : Sigma ERes} {out : HttpOutcome} {D : Db}

theorem take_one (h : tr[0]? = some a) : tr.take 1 = [a] := by
  cases tr with
  | nil => cases h
  | cons b tr => simpa using h

theorem take_two {b : Sigma ERes} (ha : tr[0]? = some a) (hb : tr[1]? = some b) :
    tr.take 2 = [a, b] := by
  cases tr with
  | nil => cases ha
  | cons c tr => simpa using ⟨by simpa using ha, take_one (by simpa using hb)⟩

theorem ne_transient {α : Type} {e : Exn} (h : isProviderError e = false) (message : String) :
    (.error e : Except Exn α) ≠ .error (.transientProviderError message) := by
  rintro heq
  obtain rfl := Except.error.inj heq
  cases h

/-- What an attempt says of its external actions. -/
abbrev SoloAttempt (P : Platform) (m retries pid k : ℕ) (T : Task) (tr : List (Sigma ERes))
    (p : Proc TaskResult) (D : Db) (n : ℕ) : Prop :=
  Machine.Solo (payflowUpTo m P) pid (Machine.AnsweredAs tr)
    (fun _ D' n' => AttemptEnds m retries T k D' (tr.take n')) p D n

theorem solo_retry (ha : tr[0]? = some a) (hout : outcome? a = some out)
    (htransient : isTransient out = true) (hlt : retries < m) (hD : Counts D T (k + 1))
    (hp : Processing D T) : SoloAttempt P m retries pid k T tr (retry T (retries + 1)) D 1 := by
  intro pick w sent w' _ hC
  have htake : tr.take 2 = [a, ⟨.sendRetry T (retries + 1), sent⟩] := take_two ha hC
  show AttemptEnds m retries T k D (tr.take 2)
  rw [htake]
  cases (sent : Bool) with
  | true => exact .again hout htransient hlt hD hp
  | false => exact .refused hout htransient hlt hD

/-- An attempt whose `try` block has raised no transient error, when nothing is counted after it. -/
theorem TryEnds.ends {res : Except Exn TaskResult} {n : ℕ} {D' : Db} (h : TryEnds T k tr D res n)
    (hres : ∀ message, res ≠ .error (.transientProviderError message)) (hD : Counts D' T k) :
    AttemptEnds m retries T k D' (tr.take n) := by
  cases h with
  | transient => exact (hres _ rfl).elim
  | answered ha hout htransient =>
    rw [take_one ha]
    exact .answered hout htransient hD
  | unasked hT => exact .unasked hT hD

theorem TryEnds.counts {res : Except Exn TaskResult} {n : ℕ} (h : TryEnds T k tr D res n) :
    Counts D T k := by
  cases h <;> assumption

theorem attemptEnds_exhausted (ha : tr[0]? = some a) (hout : outcome? a = some out)
    (htransient : isTransient out = true) (hle : m ≤ retries) (hD : Counts D T (k + 1)) :
    AttemptEnds m retries T k D (tr.take 1) := by
  rw [take_one ha]
  exact .exhausted hout htransient hle hD

end attempt

section payment

variable {P : Platform} {m retries pid k : ℕ} {p : Uuid} {s : Scenario} {tr : List (Sigma ERes)}
  {D : Db}

theorem solo_paymentTransient {a : Sigma ERes} {out : HttpOutcome} {message : String}
    (ha : tr[0]? = some a) (hout : outcome? a = some out) (htransient : isTransient out = true)
    (hmessage : hasNul (firstTwoHundred message) = false) (hD : Counts D (.processPayment p s) k)
    (hp : Processing D (.processPayment p s)) :
    SoloAttempt P m retries pid k (.processPayment p s) tr
      (processPaymentExceptUpTo m retries p s (.transientProviderError message)) D 1 := by
  obtain ⟨row, hrow, hst⟩ := hp
  refine solo_txn (fun now => soloTxn_recordRetry hrow hst hmessage hD) ?_ ?_
  · rintro - D' ⟨-, hp, hD⟩
    refine Machine.Solo.ite (fun hle => ?_) fun hlt => ?_
    · refine solo_keeps nofun hD (fun _ D' hD => ?_) fun e _ => ?_
      · exact attemptEnds_exhausted ha hout htransient hle hD
      · exact attemptEnds_exhausted ha hout htransient hle hD
    · exact solo_retry ha hout htransient (by omega) hD hp
  · rintro e D' ⟨he, -⟩
    cases he

theorem solo_paymentExcept {n : ℕ} {e : Exn}
    (h : TryEnds (.processPayment p s) k tr D (.error e) n) :
    SoloAttempt P m retries pid k (.processPayment p s) tr
      (processPaymentExceptUpTo m retries p s e) D n := by
  by_cases he : ∃ message, e = .transientProviderError message
  · obtain ⟨message, rfl⟩ := he
    cases h with
    | transient ha hout htransient hmessage hD hp =>
      exact solo_paymentTransient ha hout htransient hmessage hD hp
    | answered _ _ _ hres => exact (hres _ rfl).elim
    | unasked _ hres => exact (hres _ rfl).elim
  · have hres : ∀ message, (.error e : Except Exn TaskResult) ≠
        .error (.transientProviderError message) :=
      fun message heq => he ⟨message, Except.error.inj heq⟩
    cases e with
    | transientProviderError message => exact (he ⟨message, rfl⟩).elim
    | permanentProviderError message =>
      refine solo_keeps nofun h.counts (fun _ D' hD => ?_) fun e _ => ?_
      · exact h.ends hres hD
      · exact h.ends hres h.counts
    | _ => exact h.ends hres h.counts

theorem solo_paymentTry {row : Payment} (hp : Processing D (.processPayment p s))
    (hD : Counts D (.processPayment p s) k)
    (hgenuine : ∀ a ∈ tr, ∀ out, outcome? a = some out → Genuine out) :
    Machine.Solo (payflowUpTo m P) pid (Machine.AnsweredAs tr)
      (fun res D' n => TryEnds (.processPayment p s) k tr D' res n)
      (processPaymentTry p row s) D 0 := by
  intro pick w out w' _ hC
  have ha : tr[0]? = some ⟨.postPayment s ⟨p, row.amountCents, row.currency⟩, out⟩ := hC
  have hgenuine : Genuine out := hgenuine _ (List.mem_of_getElem? ha) _ rfl
  show Machine.Solo _ _ _ _ ((providerResponse _ _ _ out).bind _) D 1
  cases htransient : isTransient out with
  | true =>
    have hraise : ∃ message, hasNul (firstTwoHundred message) = false ∧
        providerResponse "Provider request timed out or encountered a network error"
          (fun statusCode => "Provider temporarily unavailable: " ++ toString statusCode)
          (fun _ text => "Provider rejected request: " ++ text) out =
            .raise (.transientProviderError message) :=
      providerResponse_transient htransient (hasNul_firstTwoHundred (by decide))
        fun n => hasNul_firstTwoHundred (hasNul_append (by decide) (hasNul_toString n))
    obtain ⟨message, hmessage, heq⟩ := hraise
    rw [heq]
    exact .transient ha rfl htransient hmessage hD hp
  | false =>
    obtain ⟨x, hx, heq⟩ := providerResponse_answered htransient hgenuine
    rw [heq]
    refine Machine.Solo.ofExcept (fun e he => ?_) fun providerResult _ => ?_
    · refine .answered ha rfl htransient (fun message heq => hx message ?_) hD
      rw [he, Except.error.inj heq]
    refine Machine.Solo.ofExcept (fun e he => ?_) fun providerStatus _ => ?_
    · exact .answered ha rfl htransient (ne_transient (isProviderError_getItem he)) hD
    refine Machine.Solo.ofExcept (fun e he => ?_) fun providerPaymentId _ => ?_
    · exact .answered ha rfl htransient (ne_transient (isProviderError_getItem he)) hD
    refine Machine.Solo.ite (fun _ => ?_) fun _ => Machine.Solo.ite (fun _ => ?_) fun _ => ?_
    · refine solo_keeps nofun hD (fun _ D' hD =>
        .answered ha rfl htransient nofun hD) fun e he => ?_
      exact .answered ha rfl htransient (ne_transient he) hD
    · refine solo_keeps trivial hD (fun _ D' hD =>
        .answered ha rfl htransient nofun hD) fun e he => ?_
      exact .answered ha rfl htransient (ne_transient he) hD
    · refine solo_keeps nofun hD (fun _ D' hD =>
        .answered ha rfl htransient nofun hD) fun e he => ?_
      exact .answered ha rfl htransient (ne_transient he) hD

theorem solo_paymentAttempt {row : Payment} (hp : Processing D (.processPayment p s))
    (hD : Counts D (.processPayment p s) k)
    (hgenuine : ∀ a ∈ tr, ∀ out, outcome? a = some out → Genuine out) :
    SoloAttempt P m retries pid k (.processPayment p s) tr
      ((processPaymentTry p row s).handle (processPaymentExceptUpTo m retries p s)) D 0 :=
  (solo_paymentTry hp hD hgenuine).handle (fun _ _ _ h => h.ends nofun h.counts)
    fun _ _ _ h => solo_paymentExcept h

/-- **An attempt at a payment** on its own. -/
theorem solo_processPayment
    (hst : Created D (.processPayment p s) ∨ Processing D (.processPayment p s))
    (hD : Counts D (.processPayment p s) k)
    (hgenuine : ∀ a ∈ tr, ∀ out, outcome? a = some out → Genuine out) :
    SoloAttempt P m retries pid k (.processPayment p s) tr
      (processPaymentUpTo m retries p s) D 0 := by
  have hread : ∀ {row : Payment}, D.payment? p = some row → ∀ now,
      SoloTxn store now (fun res D' => res = .ok (some row) ∧ D' = D) (getPayment p) D :=
    fun hrow now => solo_read (fun _ => congrArg (fun r => some (r, [])) hrow) ⟨rfl, rfl⟩
  rcases hst with ⟨row, hrow, hst⟩ | ⟨row, hrow, hst⟩
  · refine Machine.Solo.txn (hread hrow) ?_ (fun e D' h => by cases h.1)
    rintro r D' ⟨hr, rfl⟩
    obtain rfl := Except.ok.inj hr
    refine Machine.Solo.ite (fun h => by simp [hst] at h) fun _ => ?_
    refine Machine.Solo.ite (fun h => by simp [hst] at h) fun _ => ?_
    refine Machine.Solo.ite (fun _ => ?_) fun h => absurd hst h
    refine Machine.Solo.txn (fun now =>
      (soloTxn_processing s hrow hst).and (soloTxn_keeps (neutral_recordTransition nofun) hD)) ?_ ?_
    · exact fun _ D' h => solo_paymentAttempt h.1.2 h.2.1 hgenuine
    · exact fun e D' h => by cases h.1.1
  · refine Machine.Solo.txn (hread hrow) ?_ (fun e D' h => by cases h.1)
    rintro r D' ⟨hr, rfl⟩
    obtain rfl := Except.ok.inj hr
    refine Machine.Solo.ite (fun h => by simp [hst] at h) fun _ => ?_
    refine Machine.Solo.ite (fun h => by simp [hst] at h) fun _ => ?_
    refine Machine.Solo.ite (fun h => by simp [hst] at h) fun _ => ?_
    exact solo_paymentAttempt ⟨row, hrow, hst⟩ hD hgenuine

end payment

section refund

variable {P : Platform} {m retries pid k : ℕ} {q : Uuid} {s : RefundScenario}
  {tr : List (Sigma ERes)} {D : Db}

theorem solo_refundTransient {a : Sigma ERes} {out : HttpOutcome} {message : String}
    (ha : tr[0]? = some a) (hout : outcome? a = some out) (htransient : isTransient out = true)
    (hmessage : hasNul (firstTwoHundred message) = false) (hD : Counts D (.processRefund q s) k)
    (hp : Processing D (.processRefund q s)) :
    SoloAttempt P m retries pid k (.processRefund q s) tr
      (processRefundExceptUpTo m retries q s (.transientProviderError message)) D 1 := by
  obtain ⟨refund, hrefund, hst⟩ := hp
  refine solo_txn (fun now => soloTxn_recordRefundRetry hrefund hst hmessage hD) ?_ ?_
  · rintro - D' ⟨-, hp, hD⟩
    refine Machine.Solo.ite (fun hle => ?_) fun hlt => ?_
    · have hends : AttemptEnds m retries (.processRefund q s) k D' (tr.take 1) :=
        attemptEnds_exhausted ha hout htransient hle hD
      refine solo_keeps nofun hD (fun _ D' hD => ?_) fun e _ => ?_
      · refine solo_keeps trivial hD (fun _ D' hD => ?_) fun e _ => ?_
        · exact attemptEnds_exhausted ha hout htransient hle hD
        · exact attemptEnds_exhausted ha hout htransient hle hD
      · exact attemptEnds_exhausted ha hout htransient hle hD
    · exact solo_retry ha hout htransient (by omega) hD hp
  · rintro e D' ⟨he, -⟩
    cases he

theorem solo_refundExcept {n : ℕ} {e : Exn}
    (h : TryEnds (.processRefund q s) k tr D (.error e) n) :
    SoloAttempt P m retries pid k (.processRefund q s) tr
      (processRefundExceptUpTo m retries q s e) D n := by
  by_cases he : ∃ message, e = .transientProviderError message
  · obtain ⟨message, rfl⟩ := he
    cases h with
    | transient ha hout htransient hmessage hD hp =>
      exact solo_refundTransient ha hout htransient hmessage hD hp
    | answered _ _ _ hres => exact (hres _ rfl).elim
    | unasked _ hres => exact (hres _ rfl).elim
  · have hres : ∀ message, (.error e : Except Exn TaskResult) ≠
        .error (.transientProviderError message) :=
      fun message heq => he ⟨message, Except.error.inj heq⟩
    cases e with
    | transientProviderError message => exact (he ⟨message, rfl⟩).elim
    | permanentProviderError message =>
      refine solo_keeps nofun h.counts (fun _ D' hD => ?_) fun e _ => ?_
      · refine solo_keeps trivial hD (fun _ D'' hD => ?_) fun e _ => ?_
        · exact h.ends hres hD
        · exact h.ends hres hD
      · exact h.ends hres h.counts
    | _ => exact h.ends hres h.counts

theorem solo_refundTry {refund : Refund} (hp : Processing D (.processRefund q s))
    (hD : Counts D (.processRefund q s) k)
    (hgenuine : ∀ a ∈ tr, ∀ out, outcome? a = some out → Genuine out) :
    Machine.Solo (payflowUpTo m P) pid (Machine.AnsweredAs tr)
      (fun res D' n => TryEnds (.processRefund q s) k tr D' res n)
      (processRefundTry q refund s) D 0 := by
  have hread : ∀ now, SoloTxn store now (fun res D' => D' = D ∧ ∀ e, res ≠ .error e)
      (selectProviderPaymentIdTxn refund.paymentId) D :=
    fun now => solo_read (fun _ => rfl) ⟨rfl, nofun⟩
  refine Machine.Solo.txn hread ?_ fun e D' h => absurd rfl (h.2 e)
  rintro payment D' ⟨rfl, -⟩
  generalize hprovider : (payment : Option Payment).bind (·.providerPaymentId) = provider
  simp only [Prog.ofExcept_ok, Prog.pure_bind', Prog.bind_eq, hprovider]
  cases provider with
  | none => exact .unasked nofun nofun hD
  | some providerPaymentId =>
    intro pick w out w' _ hC
    have ha : tr[0]? = some ⟨.postRefund s
      ⟨q, providerPaymentId, refund.amountCents, refund.currency⟩, out⟩ := hC
    have hgenuine : Genuine out := hgenuine _ (List.mem_of_getElem? ha) _ rfl
    show Machine.Solo _ _ _ _ ((providerResponse _ _ _ out).bind _) D' 1
    cases htransient : isTransient out with
    | true =>
      have hraise : ∃ message, hasNul (firstTwoHundred message) = false ∧
          providerResponse "Unable to reach provider refund service"
            (fun _ => "Provider refund service is temporarily unavailable")
            (fun _ text => "Provider refund failed: " ++ text) out =
              .raise (.transientProviderError message) :=
        providerResponse_transient htransient (hasNul_firstTwoHundred (by decide))
          fun _ => hasNul_firstTwoHundred (by decide)
      obtain ⟨message, hmessage, heq⟩ := hraise
      rw [heq]
      exact .transient ha rfl htransient hmessage hD hp
    | false =>
      obtain ⟨x, hx, heq⟩ := providerResponse_answered htransient hgenuine
      rw [heq]
      refine Machine.Solo.ofExcept (fun e he => ?_) fun providerResult _ => ?_
      · refine .answered ha rfl htransient (fun message heq => hx message ?_) hD
        rw [he, Except.error.inj heq]
      refine Machine.Solo.ofExcept (fun e he => ?_) fun providerStatus _ => ?_
      · exact .answered ha rfl htransient (ne_transient (isProviderError_getItem he)) hD
      refine Machine.Solo.ofExcept (fun e he => ?_) fun providerRefundId _ => ?_
      · exact .answered ha rfl htransient (ne_transient (isProviderError_getItem he)) hD
      refine Machine.Solo.ite (fun _ => ?_) fun _ => ?_
      · refine solo_keeps nofun hD (fun _ D' hD => ?_) fun e he => ?_
        · refine solo_keeps trivial hD (fun _ D' hD => ?_) fun e he => ?_
          · exact .answered ha rfl htransient nofun hD
          · exact .answered ha rfl htransient (ne_transient he) hD
        · exact .answered ha rfl htransient (ne_transient he) hD
      · refine solo_keeps nofun hD (fun _ D' hD => ?_) fun e he => ?_
        · refine solo_keeps trivial hD (fun _ D' hD => ?_) fun e he => ?_
          · exact .answered ha rfl htransient nofun hD
          · exact .answered ha rfl htransient (ne_transient he) hD
        · exact .answered ha rfl htransient (ne_transient he) hD

theorem solo_refundAttempt {refund : Refund} (hp : Processing D (.processRefund q s))
    (hD : Counts D (.processRefund q s) k)
    (hgenuine : ∀ a ∈ tr, ∀ out, outcome? a = some out → Genuine out) :
    SoloAttempt P m retries pid k (.processRefund q s) tr
      ((processRefundTry q refund s).handle (processRefundExceptUpTo m retries q s)) D 0 :=
  (solo_refundTry hp hD hgenuine).handle (fun _ _ _ h => h.ends nofun h.counts)
    fun _ _ _ h => solo_refundExcept h

/-- **An attempt at a refund** on its own. -/
theorem solo_processRefund
    (hst : Created D (.processRefund q s) ∨ Processing D (.processRefund q s))
    (hD : Counts D (.processRefund q s) k)
    (hgenuine : ∀ a ∈ tr, ∀ out, outcome? a = some out → Genuine out) :
    SoloAttempt P m retries pid k (.processRefund q s) tr (processRefundUpTo m retries q s) D
      0 := by
  have hread : ∀ {refund : Refund}, D.refund? q = some refund → ∀ now,
      SoloTxn store now (fun res D' => res = .ok (some refund) ∧ D' = D) (getRefund q) D :=
    fun hrefund now => solo_read (fun _ => congrArg (fun r => some (r, [])) hrefund) ⟨rfl, rfl⟩
  rcases hst with ⟨refund, hrefund, hst⟩ | ⟨refund, hrefund, hst⟩
  · refine Machine.Solo.txn (hread hrefund) ?_ (fun e D' h => by cases h.1)
    rintro r D' ⟨hr, rfl⟩
    obtain rfl := Except.ok.inj hr
    refine Machine.Solo.ite (fun h => by simp [hst] at h) fun _ => ?_
    refine Machine.Solo.ite (fun h => by simp [hst] at h) fun _ => ?_
    refine Machine.Solo.ite (fun _ => ?_) fun h => absurd hst h
    refine Machine.Solo.txn (fun now => (soloTxn_refundProcessing s hrefund hst).and
      (soloTxn_keeps (neutral_recordRefundTransition nofun) hD)) ?_ ?_
    · exact fun _ D' h => solo_refundAttempt h.1 h.2.1 hgenuine
    · exact fun e D' h => .unasked nofun hD
  · refine Machine.Solo.txn (hread hrefund) ?_ (fun e D' h => by cases h.1)
    rintro r D' ⟨hr, rfl⟩
    obtain rfl := Except.ok.inj hr
    refine Machine.Solo.ite (fun h => by simp [hst] at h) fun _ => ?_
    refine Machine.Solo.ite (fun h => by simp [hst] at h) fun _ => ?_
    refine Machine.Solo.ite (fun h => by simp [hst] at h) fun _ => ?_
    exact solo_refundAttempt ⟨refund, hrefund, hst⟩ hD hgenuine

end refund

/-- **An attempt** on its own, by a message of the task. -/
theorem solo_runTask {P : Platform} {m pid k sender : ℕ} {T : Task} {retries : ℕ} {acked : Bool}
    {tr : List (Sigma ERes)} {D : Db} (hst : Created D T ∨ Processing D T) (hD : Counts D T k)
    (hgenuine : ∀ a ∈ tr, ∀ out, outcome? a = some out → Genuine out) :
    SoloAttempt P m retries pid k T tr (runTaskUpTo m ⟨T, retries, sender, acked⟩) D 0 := by
  cases T with
  | processPayment p s => exact solo_processPayment hst hD hgenuine
  | processRefund q s => exact solo_processRefund hst hD hgenuine

end Payflow.Safety
