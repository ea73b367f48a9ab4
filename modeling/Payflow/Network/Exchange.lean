import Payflow.Network.Commits
import Payflow.Network.Handlers

/-! # The system and the provider, step by step

What holds of the system, the provider and the calls between them (`NetOk`). A call is right: its
request was allowed, its handler sleeps on a record of its own, and its response is what the logic
of captures says; the process that waits for it has not moved on. -/

namespace Payflow.Network

open Payflow.Lib Payflow.Model Payflow.Spec Payflow.Safety

variable {P : Platform} {n n' : Net P} {v : View}

/-- The view of a state. -/
def view (n : Net P) : View := ⟨n.app.db, n.app.world, n.provider⟩

/-- The process is at the request, or was killed there. -/
def Waits (s : State P) (pid : ℕ) (e : Ext) : Prop :=
  ∃ x st, s.procs[pid]? = some ⟨x, st⟩ ∧ ((∃ k, st = .run (.op (.ext e) k)) ∨ st = .killed)

/-- The handler of the call sleeps on the record under the id. -/
def Sleeps (c : ProviderCall) (id : String) : Prop := c.state = .handled (.asleep id)

/-- The call's request was allowed, and its response is right. -/
structure CallOk (v : View) (c : ProviderCall) : Prop where
  request : Net.isRequest c.request = true
  allowed : Allowed v c.request
  reply : ∀ res, c.state = .handled (.ended res) →
    Replies v (.response res.statusCode res.text res.json) c.request

theorem CallOk.mono {v' : View} (hle : v.Le v') {c : ProviderCall} (h : CallOk v c) : CallOk v' c :=
  ⟨h.request, allowed_mono hle h.allowed, fun res hres => replies_mono hle (h.reply res hres)⟩

/-- The record of a webhook has ended with success. -/
def Notifies (S : Provider) (w : Webhook) : Prop :=
  HasRecord S w.paymentId w.providerPaymentId .succeeded

theorem Notifies.mono {S S' : Provider} (hle : RecordsLe S S') {w : Webhook} (h : Notifies S w) :
    Notifies S' w :=
  HasRecord.mono hle (by simp) h

/-- What holds of every state. -/
structure NetOk (n : Net P) : Prop where
  reachable : Reachable P n.app
  inv : (view n).Inv P
  safe : (captures P).AllSafe (view n) n.app
  calls : ∀ (i : ℕ) c, n.calls[i]? = some c → CallOk (view n) c
  sleeping : ∀ (i : ℕ) c id, n.calls[i]? = some c → Sleeps c id →
    Asleep n.provider id c.request
  own : ∀ (i j : ℕ) c c' id, n.calls[i]? = some c → n.calls[j]? = some c' → Sleeps c id →
    Sleeps c' id → i = j
  clients : ∀ (i : ℕ) c pid, n.calls[i]? = some c → c.client = some pid → Waits n.app pid c.request
  client_unique : ∀ (i j : ℕ) c c' pid, n.calls[i]? = some c → n.calls[j]? = some c' →
    c.client = some pid → c'.client = some pid → i = j
  webhooks : ∀ w ∈ n.provider.webhooks, Notifies n.provider w
  signed : ∀ x ∈ n.signed, Notifies n.provider x.2

/-! ### Steps of the system -/

theorem taskOf_step {s s' : State P} {a : Action (Start P) Pick}
    (hs : (payflow P).step s a = some s')
    {i : ℕ} {t : Task} (h : taskOf s.world i = some t) : taskOf s'.world i = some t := by
  rcases Machine.step_world hs with hw | ⟨x, out, hw⟩ | ⟨pid, pick, e, r, hw⟩
  · rw [hw]
    exact h
  · have hsame : taskOf (finish P x out s.world) i = taskOf s.world i := taskOf_finish
    rw [hw]
    exact hsame.trans h
  · exact taskOf_ext hw h

/-- A process that waits goes on waiting until its request has an outcome. -/
theorem Waits.step {s s' : State P} {a : Action (Start P) Pick} {pid : ℕ} {e : Ext}
    (h : Waits s pid e) (he : Net.isRequest e = true) (hs : (payflow P).step s a = some s')
    (ha : ∀ out, a ≠ .step pid (.http out)) : Waits s' pid e := by
  obtain ⟨x, st, hp, hst⟩ := h
  have hlt : pid < s'.procs.length :=
    Nat.lt_of_lt_of_le (List.getElem?_eq_some_iff.mp hp).1 (Machine.length_procs_le hs)
  have hp' := List.getElem?_eq_getElem hlt
  generalize s'.procs[pid] = q at hp'
  obtain ⟨y, st'⟩ := q
  refine ⟨y, st', hp', ?_⟩
  cases Machine.step_process hs hp' with
  | other hq =>
    obtain ⟨rfl, rfl⟩ := Machine.Proc.mk.inj (Option.some.inj (hp.symm.trans hq))
    exact hst
  | killed => exact Or.inr rfl
  | started _ hq => simp [hp] at hq
  | @own st₀ st' pick w hstep hq hadv =>
    obtain ⟨rfl, rfl⟩ := Machine.Proc.mk.inj (Option.some.inj (hp.symm.trans hq))
    rcases hst with ⟨k, rfl⟩ | rfl
    · -- only an outcome answers the request
      simp only [Machine.advance] at hadv
      split at hadv
      · rename_i r w' hw
        cases pick with
        | http out => exact absurd hstep (ha out)
        | _ => cases e <;> simp [payflow, ext, Net.isRequest] at hw he
      · simp at hadv
    · simp [Machine.advance] at hadv

theorem inv_step (hP : PlatformLaws P) {S : Provider} {s s' : State P} {a : Action (Start P) Pick}
    (h : Reachable P s) (hinv : View.Inv P ⟨s.db, s.world, S⟩)
    (hsafe : (captures P).AllSafe ⟨s.db, s.world, S⟩ s) (hs : (payflow P).step s a = some s') :
    View.Inv P ⟨s'.db, s'.world, S⟩ ∧ View.Le ⟨s.db, s.world, S⟩ ⟨s'.db, s'.world, S⟩ := by
  have hdb : View.Inv P ⟨s'.db, s.world, S⟩ ∧ View.Le ⟨s.db, s.world, S⟩ ⟨s'.db, s.world, S⟩ := by
    rcases step_commit h hs with hdb | ⟨pid, pick, b, now, ws, r, -, hcommit, hreq, hdoes, hdb⟩
    · rw [hdb]
      exact ⟨hinv, .refl _⟩
    · obtain ⟨x, ls, k, hp⟩ := hcommit
      have hopen := hsafe _ (List.mem_of_getElem? hp)
      rw [hdb]
      exact inv_commit hP hinv hreq hopen.1 hdoes
  obtain ⟨hinv', hle⟩ := hdb
  have hworld : View.Le ⟨s'.db, s.world, S⟩ ⟨s'.db, s'.world, S⟩ := by
    refine ⟨.refl _, fun p row row' hrow hrow' hid => ?_, fun i t ht => taskOf_step hs ht, .refl _,
      .refl _⟩
    obtain rfl := Option.some.inj (hrow.symm.trans hrow')
    exact hid
  have h' : Reachable P s' := .step h trivial hs
  exact ⟨⟨hinv'.db, hinv'.refunds, hinv'.rows, hinv'.refundRows,
    fun id r hr => (hinv'.records id r hr).mono hworld,
    fun id r hr => (hinv'.refundRecords id r hr).mono hworld, samePaymentTask h', sameRefundTask h'⟩,
    hle.trans hworld⟩

/-- **A step of the system**, with an outcome that is right if it is one, and a genuine webhook if
it starts one that is signed. -/
theorem NetOk.stepApp (hP : PlatformLaws P) (h : NetOk n) {a : Action (Start P) Pick}
    (hstart : ∀ call, a = .start (.receiveProviderWebhook call) →
      call.xWebhookSignature = P.webhookHmac call.rawBody → Genuine (view n) call)
    (hreply : ∀ pid out x e k, a = .step pid (.http out) →
      n.app.procs[pid]? = some ⟨x, .run (.op (.ext e) k)⟩ → Replies (view n) out e)
    (hclients : ∀ (i : ℕ) c pid out, n.calls[i]? = some c → c.client = some pid →
      a ≠ .step pid (.http out)) (hs : n.stepApp a = some n') : NetOk n' := by
  unfold Net.stepApp at hs
  split at hs
  swap
  · simp at hs
  rename_i s' hs'
  obtain rfl := Option.some.inj hs
  obtain ⟨hinv, hle⟩ := inv_step hP h.reachable h.inv h.safe hs'
  refine ⟨.step h.reachable trivial hs', hinv, ?_, fun i c hc =>
    (h.calls i c hc).mono hle, h.sleeping,
    h.own, fun i c pid hc hclient => ?_, h.client_unique, h.webhooks, h.signed⟩
  · refine Logic.AllSafe.step (captures_lawful P) (v := view n) rfl h.inv h.safe hle hinv ?_ ?_ hs'
    · rintro x p rfl hp
      refine Logic.Safe.mono (captures_lawful P) (fun _ h => h) ?_ hle
      exact safe_start (v := view n) hP (fun call hx hsig => hstart call (hx ▸ rfl) hsig) hp
    · intro pid pick x e k r w ha hp hw
      cases e with
      | postPayment scenario json | getPayment id | postRefund scenario json =>
        have hw : ext pid pick n.app.world _ = some (r, w) := hw
        simp only [ext] at hw
        split at hw
        · rename_i out hout
          obtain ⟨rfl, -⟩ := Prod.mk.inj (Option.some.inj hw)
          exact replies_mono hle (hreply pid out x _ k ha hp)
        · simp at hw
      | _ => trivial
  · exact (h.clients i c pid hc hclient).step (h.calls i c hc).request hs'
      fun out => hclients i c pid out hc hclient

/-! ### Steps of the provider -/

/-- **A handler moves on**: one call changes its state, and the provider. -/
theorem NetOk.handler (h : NetOk n) {i : ℕ} {c : ProviderCall} {st : CallState} {S : Provider}
    (hc : n.calls[i]? = some c) (hinv : View.Inv P ⟨n.app.db, n.app.world, S⟩)
    (hle : (view n).Le ⟨n.app.db, n.app.world, S⟩)
    (hreply : ∀ res, st = .handled (.ended res) → Replies ⟨n.app.db, n.app.world, S⟩
      (.response res.statusCode res.text res.json) c.request)
    (hsleep : ∀ id, st = .handled (.asleep id) → Asleep S id c.request ∧
      ∀ (j : ℕ) c', n.calls[j]? = some c' → j ≠ i → ¬ Sleeps c' id)
    (hkept : ∀ (j : ℕ) c' id, n.calls[j]? = some c' → j ≠ i → Sleeps c' id →
      Asleep n.provider id c'.request → Asleep S id c'.request)
    (hnotified : Notified n.provider S) :
    NetOk { n.setCall i ⟨c.client, c.request, st⟩ with provider := S } := by
  have hlt := (List.getElem?_eq_some_iff.mp hc).1
  have hcalls : ∀ {j : ℕ} {c'}, (n.calls.set i ⟨c.client, c.request, st⟩)[j]? = some c' →
      (j = i ∧ c' = ⟨c.client, c.request, st⟩) ∨ (j ≠ i ∧ n.calls[j]? = some c') := by
    intro j c' hj
    by_cases he : j = i
    · subst he
      rw [List.getElem?_set_self hlt] at hj
      exact Or.inl ⟨rfl, (Option.some.inj hj).symm⟩
    · rw [List.getElem?_set_ne (Ne.symm he)] at hj
      exact Or.inr ⟨he, hj⟩
  have hcall := h.calls i c hc
  refine ⟨h.reachable, hinv, Logic.AllSafe.mono (captures_lawful P) h.safe hle, ?_, ?_,
    ?_, ?_, ?_, ?_,
    fun x hx => (h.signed x hx).mono hle.records⟩
  · intro j c' hj
    rcases hcalls hj with ⟨-, rfl⟩ | ⟨-, hj⟩
    · exact ⟨hcall.request, allowed_mono hle hcall.allowed, hreply⟩
    · exact (h.calls j c' hj).mono hle
  · intro j c' id hj hs
    rcases hcalls hj with ⟨-, rfl⟩ | ⟨he, hj⟩
    · exact (hsleep id hs).1
    · exact hkept j c' id hj he hs (h.sleeping j c' id hj hs)
  · intro j k c₁ c₂ id hj hk hs₁ hs₂
    rcases hcalls hj with ⟨hji, rfl⟩ | ⟨hji, hj'⟩
    · rcases hcalls hk with ⟨hki, -⟩ | ⟨hki, hk'⟩
      · rw [hji, hki]
      · exact absurd hs₂ ((hsleep id hs₁).2 k c₂ hk' hki)
    · rcases hcalls hk with ⟨hki, rfl⟩ | ⟨-, hk'⟩
      · exact absurd hs₁ ((hsleep id hs₂).2 j c₁ hj' hji)
      · exact h.own j k c₁ c₂ id hj' hk' hs₁ hs₂
  · intro j c' pid hj hclient
    rcases hcalls hj with ⟨-, rfl⟩ | ⟨-, hj⟩
    · exact h.clients i c pid hc hclient
    · exact h.clients j c' pid hj hclient
  · intro j k c₁ c₂ pid hj hk h₁ h₂
    rcases hcalls hj with ⟨hji, rfl⟩ | ⟨-, hj'⟩
    · rcases hcalls hk with ⟨hki, -⟩ | ⟨-, hk'⟩
      · rw [hji, hki]
      · rw [hji]
        exact h.client_unique i k c c₂ pid hc hk' h₁ h₂
    · rcases hcalls hk with ⟨hki, rfl⟩ | ⟨-, hk'⟩
      · rw [hki]
        exact h.client_unique j i c₁ c pid hj' hc h₁ h₂
      · exact h.client_unique j k c₁ c₂ pid hj' hk' h₁ h₂
  · intro w hw
    rcases hnotified w hw with hw | hw
    · exact (h.webhooks w hw).mono hle.records
    · exact hw

theorem NetOk.receive (h : NetOk n) {i : ℕ} {client : Option ℕ} {e : Ext} {id text : String}
    {S : Provider} {hd : Handler} (hc : n.calls[i]? = some ⟨client, e, .sent⟩)
    (hs : handle P n.provider id text e = some (S, hd)) :
    NetOk { n.setCall i ⟨client, e, .handled hd⟩ with provider := S } := by
  have hbegun := handle_ok (v := view n) h.inv (h.calls i _ hc).allowed hs
  refine h.handler hc hbegun.inv hbegun.le (fun res hres => ?_) (fun id' hst => ?_)
    (fun j c' id' _ _ _ hs' => hbegun.kept id' _ hs') hbegun.notified
  · exact hbegun.reply res (CallState.handled.inj hres)
  · obtain ⟨rfl, hunused, hasleep⟩ := hbegun.asleep id' (CallState.handled.inj hst)
    refine ⟨hasleep, fun j c' hj _ hs' => ?_⟩
    have hused := (h.sleeping j c' id' hj hs').used
    exact absurd (hunused.symm.trans hused) (by simp)

theorem NetOk.wake (h : NetOk n) {i : ℕ} {client : Option ℕ} {e : Ext} {id : String} {S : Provider}
    {hd : Handler} (hc : n.calls[i]? = some ⟨client, e, .handled (.asleep id)⟩)
    (hs : wakeHandler n.provider id e = some (S, hd)) :
    NetOk { n.setCall i ⟨client, e, .handled hd⟩ with provider := S } := by
  have hfin := wake_ok (v := view n) h.inv (h.calls i _ hc).allowed (h.sleeping i _ id hc rfl) hs
  obtain ⟨res, rfl, hreply⟩ := hfin.reply
  refine h.handler hc hfin.inv hfin.le (fun res' hres => ?_) (fun id' hst => by simp at hst)
    (fun j c' id' hj hji hs' hasleep => hasleep.congr (hfin.others id' ?_)) hfin.notified
  · obtain rfl := Handler.ended.inj (CallState.handled.inj hres)
    exact hreply
  · rintro rfl
    exact hji (h.own j i c' _ id' hj hc hs' rfl)

/-! ### The other steps -/

theorem NetOk.send (h : NetOk n) {pid : ℕ} {e : Ext} (hasks : n.asks pid = some e)
    (hnew : ∀ c ∈ n.calls, c.client ≠ some pid) :
    NetOk { n with calls := n.calls ++ [⟨some pid, e, .sent⟩] } := by
  unfold Net.asks at hasks
  split at hasks
  swap
  · simp at hasks
  rename_i x e' k hp
  split_ifs at hasks with hrequest
  obtain rfl := Option.some.inj hasks
  have hsafe := h.safe _ (List.mem_of_getElem? hp)
  have hcalls : ∀ {j : ℕ} {c}, (n.calls ++ [⟨some pid, e', .sent⟩])[j]? = some c →
      n.calls[j]? = some c ∨ (j = n.calls.length ∧ c = ⟨some pid, e', .sent⟩) := by
    intro j c hj
    rw [List.getElem?_append] at hj
    split_ifs at hj with hlt
    · exact Or.inl hj
    · have hlen := (List.getElem?_eq_some_iff.mp hj).1
      rw [List.length_singleton] at hlen
      exact Or.inr ⟨by omega, List.mem_singleton.mp (List.mem_of_getElem? hj)⟩
  have hfree : ∀ {j : ℕ} {c}, n.calls[j]? = some c → c.client ≠ some pid :=
    fun hj => hnew _ (List.mem_of_getElem? hj)
  refine ⟨h.reachable, h.inv, h.safe, ?_, ?_, ?_, ?_, ?_, h.webhooks, h.signed⟩
  · intro j c hj
    rcases hcalls hj with hj | ⟨-, rfl⟩
    · exact h.calls j c hj
    · exact ⟨hrequest, hsafe.1, fun res hres => by simp at hres⟩
  · intro j c id hj hs
    rcases hcalls hj with hj | ⟨-, rfl⟩
    · exact h.sleeping j c id hj hs
    · simp [Sleeps] at hs
  · intro j k c c' id hj hk hs hs'
    rcases hcalls hj with hj | ⟨-, rfl⟩
    · rcases hcalls hk with hk | ⟨-, rfl⟩
      · exact h.own j k c c' id hj hk hs hs'
      · simp [Sleeps] at hs'
    · simp [Sleeps] at hs
  · intro j c pid' hj hclient
    rcases hcalls hj with hj | ⟨-, rfl⟩
    · exact h.clients j c pid' hj hclient
    · obtain rfl := Option.some.inj hclient
      exact ⟨x, _, hp, Or.inl ⟨k, rfl⟩⟩
  · intro j k c c' pid' hj hk h₁ h₂
    rcases hcalls hj with hj' | ⟨hjl, rfl⟩
    · rcases hcalls hk with hk' | ⟨-, rfl⟩
      · exact h.client_unique j k c c' pid' hj' hk' h₁ h₂
      · exact absurd (h₁.trans h₂.symm) (hfree hj')
    · rcases hcalls hk with hk' | ⟨hkl, -⟩
      · exact absurd (h₂.trans h₁.symm) (hfree hk')
      · rw [hjl, hkl]

theorem NetOk.leave (h : NetOk n) {i : ℕ} {c : ProviderCall} (hc : n.calls[i]? = some c) :
    NetOk (n.setCall i ⟨none, c.request, c.state⟩) := by
  have hlt := (List.getElem?_eq_some_iff.mp hc).1
  -- every call is as it was, but for its client
  have hcalls : ∀ {j : ℕ} {c'}, (n.calls.set i ⟨none, c.request, c.state⟩)[j]? = some c' →
      ∃ c₀, n.calls[j]? = some c₀ ∧ c'.request = c₀.request ∧ c'.state = c₀.state ∧
        (c'.client = c₀.client ∨ c'.client = none) := by
    intro j c' hj
    by_cases he : j = i
    · subst he
      rw [List.getElem?_set_self hlt] at hj
      obtain rfl := Option.some.inj hj
      exact ⟨c, hc, rfl, rfl, Or.inr rfl⟩
    · rw [List.getElem?_set_ne (Ne.symm he)] at hj
      exact ⟨c', hj, rfl, rfl, Or.inl rfl⟩
  refine ⟨h.reachable, h.inv, h.safe, ?_, ?_, ?_, ?_, ?_, h.webhooks, h.signed⟩
  · intro j c' hj
    obtain ⟨c₀, hj₀, hr, hst, -⟩ := hcalls hj
    obtain ⟨hrequest, hallow, hreply⟩ := h.calls j c₀ hj₀
    exact ⟨hr ▸ hrequest, hr ▸ hallow, fun res hres => hr ▸ hreply res (hst ▸ hres)⟩
  · intro j c' id hj hs
    obtain ⟨c₀, hj₀, hr, hst, -⟩ := hcalls hj
    exact hr ▸ h.sleeping j c₀ id hj₀ (hst.symm.trans hs)
  · intro j k c₁ c₂ id hj hk hs₁ hs₂
    obtain ⟨c₃, hj₃, -, hst₃, -⟩ := hcalls hj
    obtain ⟨c₄, hk₄, -, hst₄, -⟩ := hcalls hk
    exact h.own j k c₃ c₄ id hj₃ hk₄ (hst₃.symm.trans hs₁) (hst₄.symm.trans hs₂)
  · intro j c' pid hj hclient
    obtain ⟨c₀, hj₀, hr, -, hcl | hcl⟩ := hcalls hj
    · rw [hr]
      exact h.clients j c₀ pid hj₀ (hcl ▸ hclient)
    · simp [hcl] at hclient
  · intro j k c₁ c₂ pid hj hk h₁ h₂
    obtain ⟨c₃, hj₃, -, -, hcl₃ | hcl₃⟩ := hcalls hj
    · obtain ⟨c₄, hk₄, -, -, hcl₄ | hcl₄⟩ := hcalls hk
      · exact h.client_unique j k c₃ c₄ pid hj₃ hk₄ (hcl₃ ▸ h₁) (hcl₄ ▸ h₂)
      · simp [hcl₄] at h₂
    · simp [hcl₃] at h₁

theorem NetOk.setWebhook (h : NetOk n) {k : ℕ} {w : Webhook} (w' : Webhook)
    {signed : List (String × Webhook)}
    (hw : n.provider.webhooks[k]? = some w) (hp : w'.paymentId = w.paymentId)
    (hid : w'.providerPaymentId = w.providerPaymentId)
    (hsigned : ∀ x ∈ signed, x ∈ n.signed ∨ x.2 = w') :
    NetOk { n.setWebhook k w' with signed := signed } := by
  have hnew : Notifies n.provider w' := by
    unfold Notifies
    rw [hp, hid]
    exact h.webhooks w (List.mem_of_getElem? hw)
  obtain ⟨hinv, hle⟩ := inv_same (v := view n) (S := (n.setWebhook k w').provider) h.inv
    (fun _ => rfl) fun _ => rfl
  refine ⟨h.reachable, hinv, Logic.AllSafe.mono (captures_lawful P) h.safe hle,
    fun j c hj => (h.calls j c hj).mono hle, h.sleeping, h.own, h.clients, h.client_unique, ?_, ?_⟩
  · intro w₁ hw₁
    rcases List.mem_or_eq_of_mem_set hw₁ with hw₁ | rfl
    · exact h.webhooks w₁ hw₁
    · exact hnew
  · intro x hx
    rcases hsigned x hx with hx | hx
    · exact h.signed x hx
    · rw [hx]
      exact hnew

/-! ### Runs -/

theorem replies_of_failure {out : HttpOutcome} {e : Ext} (h : Net.isResponse out = false) :
    Replies v out e := by
  have hno : ∀ {Q : Json → Prop}, Accepted Q out := by
    rintro Q statusCode text json rfl
    simp [Net.isResponse] at h
  cases e with
  | postPayment scenario json | getPayment id | postRefund scenario json => exact hno
  | _ => trivial

/-- A call has its outcome: the client leaves, and the system moves on. -/
theorem NetOk.outcome (hP : PlatformLaws P) (h : NetOk n) {i pid : ℕ} {e : Ext} {state : CallState}
    {out : HttpOutcome} (hc : n.calls[i]? = some ⟨some pid, e, state⟩)
    (hout : Replies (view n) out e)
    (hs : (n.setCall i ⟨none, e, state⟩).stepApp (.step pid (.http out)) = some n') : NetOk n' := by
  refine (h.leave hc).stepApp hP (fun call hcall => by simp at hcall) ?_ ?_ hs
  · rintro pid' out' x e' k ha hp
    obtain ⟨rfl, hpick⟩ := Action.step.inj ha
    obtain rfl := Pick.http.inj hpick
    -- the process that waits is at the request of the call
    obtain ⟨y, st, hp', hst⟩ := h.clients i _ _ hc rfl
    obtain ⟨-, rfl⟩ := Machine.Proc.mk.inj (Option.some.inj (hp'.symm.trans hp))
    rcases hst with ⟨k', hk⟩ | hk
    · cases hk
      exact hout
    · simp at hk
  · rintro j c pid' out' hj hclient ha
    obtain ⟨rfl, -⟩ := Action.step.inj ha
    have hlt := (List.getElem?_eq_some_iff.mp hc).1
    have hj : (n.calls.set i ⟨none, e, state⟩)[j]? = some c := hj
    by_cases hji : j = i
    · subst hji
      rw [List.getElem?_set_self hlt] at hj
      obtain rfl := Option.some.inj hj
      simp at hclient
    · rw [List.getElem?_set_ne (Ne.symm hji)] at hj
      exact hji (h.client_unique j i c _ _ hj hc hclient rfl)

/-- A call with the body of a webhook that the provider has signed is genuine. -/
theorem Notifies.genuine {w : Webhook} {eventId : String} {call : ReceiveWebhook}
    (h : Notifies v.provider w) (hbody : (webhookCall P eventId w).rawBody = call.rawBody) :
    Genuine v call :=
  ⟨eventId, w.paymentId, w.providerPaymentId, hbody.symm, h⟩

theorem NetOk.start (hP : PlatformLaws P) (h : NetOk n) {call : ReceiveWebhook}
    (hcall : Genuine (view n) call)
    (hs : n.stepApp (.start (.receiveProviderWebhook call)) = some n') :
    NetOk n' := by
  refine h.stepApp hP (fun call' ha _ => ?_) (fun _ _ _ _ _ ha => ?_) (fun _ _ _ _ _ _ ha => ?_) hs
  · obtain rfl := Start.receiveProviderWebhook.inj (Action.start.inj ha)
    exact hcall
  · cases ha
  · cases ha

/-- **One step.** -/
theorem netOk_step (hP : PlatformLaws P) (h : NetOk n) {a : NetAction P} (hs : n.step a = some n') :
    NetOk n' := by
  cases a with
  | app a =>
    simp only [Net.step] at hs
    split_ifs at hs with hadmits
    refine h.stepApp hP (fun call ha hsig => ?_) ?_ ?_ hs
    · -- a webhook with the right signature is a copy
      subst ha
      simp only [Net.admits, Bool.or_eq_true, bne_iff_ne, List.any_eq_true] at hadmits
      rcases hadmits with hne | ⟨⟨eventId, w⟩, hmem, hbody⟩
      · exact absurd hsig hne
      · have hnotifies : Notifies (view n).provider w := h.signed _ hmem
        exact hnotifies.genuine (eq_of_beq hbody)
    · rintro pid out x e k rfl
      simp [Net.admits] at hadmits
    · rintro i c pid out - - rfl
      simp [Net.admits] at hadmits
  | send pid =>
    simp only [Net.step] at hs
    split at hs
    · rename_i e hasks
      split_ifs at hs with hany
      obtain rfl := Option.some.inj hs
      refine h.send hasks fun c hc hclient => hany ?_
      exact List.any_eq_true.mpr ⟨c, hc, by simp [hclient]⟩
    · simp at hs
  | receive i id text =>
    simp only [Net.step] at hs
    split at hs
    · rename_i client e hc
      split at hs
      · rename_i S hd hhandle
        obtain rfl := Option.some.inj hs
        exact h.receive hc hhandle
      · simp at hs
    · simp at hs
  | wake i =>
    simp only [Net.step] at hs
    split at hs
    · rename_i client e id hc
      split at hs
      · rename_i S hd hwake
        obtain rfl := Option.some.inj hs
        exact h.wake hc hwake
      · simp at hs
    · simp at hs
  | respond i =>
    simp only [Net.step] at hs
    split at hs
    · rename_i pid e r hc
      exact h.outcome hP hc ((h.calls i _ hc).reply r rfl) hs
    · simp at hs
  | fail i out =>
    simp only [Net.step] at hs
    split at hs
    · rename_i pid e state hc
      split_ifs at hs with hout
      exact h.outcome hP hc (replies_of_failure (by simpa using hout)) hs
    · simp at hs
  | deliver k eventId =>
    simp only [Net.step] at hs
    split at hs
    · rename_i paymentId id duplicate hw
      split_ifs at hs with hany
      have hold := h.webhooks _ (List.mem_of_getElem? hw)
      generalize hw' : Webhook.mk paymentId id duplicate (.sent eventId n.app.procs.length) = w' at hs
      have hsent : Notifies n.provider w' := hw' ▸ hold
      refine (h.setWebhook w' hw (by rw [← hw']) (by rw [← hw']) fun x hx => ?_).start hP
        (hsent.genuine rfl) hs
      rcases List.mem_append.mp hx with hx | hx
      · exact Or.inl hx
      · exact Or.inr (by rw [List.mem_singleton.mp hx])
    · simp at hs
  | deliverAgain k =>
    simp only [Net.step] at hs
    split at hs
    · rename_i paymentId id eventId pid hw
      split_ifs at hs with hanswered
      have hold := h.webhooks _ (List.mem_of_getElem? hw)
      have hsent : Notifies n.provider ⟨paymentId, id, true, .over⟩ := hold
      have hok := h.setWebhook ⟨paymentId, id, true, .over⟩ hw rfl rfl fun x hx => Or.inl hx
      exact hok.start hP (hsent.genuine rfl) hs
    · simp at hs
  | lose k =>
    simp only [Net.step] at hs
    split at hs
    · rename_i paymentId id duplicate hw
      obtain rfl := Option.some.inj hs
      exact h.setWebhook ⟨paymentId, id, duplicate, .over⟩ hw rfl rfl fun x hx => Or.inl hx
    · simp at hs

theorem netOk_init (P : Platform) : NetOk (Net.init P) where
  reachable := .refl
  inv := by
    refine ⟨inv_empty, ?_, ?_, ?_, ?_, ?_, ?_, ?_⟩
    · simp [RefundsSettled, view, Net.init, Model.init, Db.refund?, Db.empty]
    · simp [view, Net.init, Model.init, Db.payment?, Db.empty]
    · simp [view, Net.init, Model.init, Db.refund?, Db.empty]
    · simp [view, Net.init, Provider.payment?]
    · simp [view, Net.init, Provider.refund?]
    · simp [SameTask, view, Net.init, Model.init, taskOf]
    · simp [SameTask, view, Net.init, Model.init, taskOf]
  safe := by
    intro p hp
    simp [Net.init, Model.init] at hp
  calls i c hc := by simp [Net.init] at hc
  sleeping i c id hc := by simp [Net.init] at hc
  own i j c c' id hc := by simp [Net.init] at hc
  clients i c pid hc := by simp [Net.init] at hc
  client_unique i j c c' pid hc := by simp [Net.init] at hc
  webhooks w hw := by simp [Net.init] at hw
  signed x hx := by simp [Net.init] at hx

/-- **All states that are reached** are right. -/
theorem netOk_of_reachable (hP : PlatformLaws P) (h : NetReachable n) : NetOk n :=
  h.invariant (netOk_init P) fun hok _ hs => netOk_step hP hok hs

end Payflow.Network
