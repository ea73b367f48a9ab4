import Payflow.Lib.Indexed
import Payflow.Lib.PrefixCode
import Payflow.Lib.Steps
import Payflow.Model.RateLimit
import Payflow.Model.System

/-! # The rate limit, behind two limiters

`main.py` adds `RateLimitMiddleware` twice. A request that the outer limiter lets pass counts again
in the inner one, under the same key of Redis; a request that a limiter refuses has counted there.
So the counter is at most twice the number of the requests, and a request that reaches the endpoint
has used two of the limit. The expiry that each `EXPIRE` sets lies beyond the window, and only the
requests with the same API key in the same window share the counter. -/

namespace Payflow.Safety

open Payflow.Lib Payflow.Model

variable {P : Platform} {cfg : RateLimit} {k : String} {w : ℕ} {inWindow : ℕ → Bool}
  {s s' : Gateway}

/-- The request has the API key, and its path is limited. -/
def LimitedKey (k : String) (request : HttpRequest) : Prop :=
  startsWith request.path "/v1/" = true ∧ startsWith request.path "/v1/webhooks/" = false ∧
    request.xApiKey = some k

instance (k : String) (request : HttpRequest) : Decidable (LimitedKey k request) :=
  inferInstanceAs (Decidable (_ ∧ _ ∧ _))

/-- The requests that are counted together: those with the API key which fall in the window. -/
def Grouped (k : String) (inWindow : ℕ → Bool) (i : ℕ) (request : HttpRequest) : Prop :=
  LimitedKey k request ∧ inWindow i = true

instance (k : String) (inWindow : ℕ → Bool) (i : ℕ) (request : HttpRequest) :
    Decidable (Grouped k inWindow i request) :=
  inferInstanceAs (Decidable (_ ∧ _))

/-- The requests `inWindow` fall in the window `w`: their limiters read the clock and Redis counts
while it lasts, and Redis is available to them. The other requests with the API key read the clock
at another time. No other API key has the same identity. -/
def FallsIn (P : Platform) (cfg : RateLimit) (k : String) (w : ℕ) (inWindow : ℕ → Bool)
    (s : Gateway) : GatewayAction → Prop
  | .arrive request => ∀ k', request.xApiKey = some k' → identity P k' = identity P k → k' = k
  | .enter i => ∀ request rest passed,
      s.requests[i]? = some (request, .inner (.rateLimit :: rest) passed) → LimitedKey k request →
        (cfg.window s.clock = w ↔ inWindow i = true)
  | .execute i => ∀ request st, s.requests[i]? = some (request, st) →
      Grouped k inWindow i request → cfg.window s.clock = w
  | .redisError i => ∀ request st, s.requests[i]? = some (request, st) →
      ¬Grouped k inWindow i request
  | .tick _ => True

/-- How often the request was let pass by a limiter. -/
def admissions : RequestState → ℕ
  | .inner _ passed | .counting _ _ passed | .reached passed | .refused _ passed => passed.length

/-- The request was answered 429. -/
def refusals : RequestState → ℕ
  | .refused _ _ => 1
  | _ => 0

/-- The request has reached the endpoint. -/
def arrivals : RequestState → ℕ
  | .reached _ => 1
  | _ => 0

/-- A number of each request, added up over those that are counted together. -/
def tally (k : String) (inWindow : ℕ → Bool) (f : RequestState → ℕ) (s : Gateway) : ℕ :=
  sumIdx (fun i e => if Grouped k inWindow i e.1 then f e.2 else 0) s.requests

/-- `n`. -/
def groupedRequests (k : String) (inWindow : ℕ → Bool) : Gateway → ℕ := tally k inWindow fun _ => 1

/-- The requests that have reached the endpoint. -/
def reachedRequests (k : String) (inWindow : ℕ → Bool) : Gateway → ℕ :=
  tally k inWindow arrivals

/-- The requests that were answered 429. -/
def refusedRequests (k : String) (inWindow : ℕ → Bool) : Gateway → ℕ :=
  tally k inWindow refusals

/-- The requests that are counted together have reached the endpoint or were answered 429. -/
def AllAnswered (k : String) (inWindow : ℕ → Bool) (s : Gateway) : Prop :=
  ∀ i request st, s.requests[i]? = some (request, st) → Grouped k inWindow i request →
    (∃ passed, st = .reached passed) ∨ ∃ r passed, st = .refused r passed

/-! ### The key of Redis -/

theorem redisKey_inj {a a' : String} {n n' : ℕ} (h : redisKey a n = redisKey a' n') :
    a = a' ∧ n = n' := by
  unfold redisKey at h
  have h := congrArg List.reverse (List.append_cancel_left (by
    simpa only [List.append_assoc] using String.ofList_inj.mp h))
  rw [List.reverse_append, List.reverse_append, List.reverse_cons, List.reverse_cons,
    List.append_assoc, List.append_assoc] at h
  have hcolon : ∀ m : ℕ, ':' ∉ (toString m).toList.reverse := by
    intro m hm
    exact not_mem_digits (by decide) m (Nat.toList_repr ▸ List.mem_reverse.mp hm)
  obtain ⟨hdigits, hid⟩ := append_stop_inj (hcolon n) (hcolon n') h
  refine ⟨String.toList_inj.mp (List.reverse_inj.mp hid), toDigits_inj ?_⟩
  have hdigits : (Nat.repr n).toList = (Nat.repr n').toList := List.reverse_inj.mp hdigits
  rwa [Nat.toList_repr, Nat.toList_repr] at hdigits

theorem key?_limited {request : HttpRequest} (h : LimitedKey k request) (hk : k ≠ "")
    (clock : ℕ) :
    cfg.key? P clock request = some (redisKey (identity P k) (cfg.window clock)) := by
  unfold RateLimit.key?
  rw [h.1, h.2.1, h.2.2]
  simp [hk]

theorem of_key? {request : HttpRequest} {clock : ℕ} {key : String}
    (h : cfg.key? P clock request = some key) :
    ∃ k', LimitedKey k' request ∧ key = redisKey (identity P k') (cfg.window clock) := by
  unfold RateLimit.key? at h
  split_ifs at h with h₁ h₂
  split at h
  · simp at h
  · rename_i k' hk'
    split_ifs at h
    exact ⟨k', ⟨by simpa using h₁, by simpa using h₂, hk'⟩, (Option.some.inj h).symm⟩

/-! ### The steps -/

/-- How an action moves a request on. -/
inductive Proceeds (P : Platform) (cfg : RateLimit) (s : Gateway) (i : ℕ) (request : HttpRequest) :
    GatewayAction → RequestState → RequestState → Prop
  | reach (passed : List RateHeaders) :
      Proceeds P cfg s i request (.enter i) (.inner [] passed) (.reached passed)
  | pass (m : Middleware) (rest : List Middleware) (passed : List RateHeaders)
      (h : m = .rateLimit → cfg.key? P s.clock request = none) :
      Proceeds P cfg s i request (.enter i) (.inner (m :: rest) passed) (.inner rest passed)
  | limit (key : String) (rest : List Middleware) (passed : List RateHeaders)
      (h : cfg.key? P s.clock request = some key) :
      Proceeds P cfg s i request (.enter i) (.inner (.rateLimit :: rest) passed)
        (.counting key rest passed)
  | failOpen (key : String) (rest : List Middleware) (passed : List RateHeaders) :
      Proceeds P cfg s i request (.redisError i) (.counting key rest passed) (.inner rest passed)

/-- Redis has counted the request. -/
def counted (cfg : RateLimit) (s : Gateway) (i : ℕ) (request : HttpRequest) (key : String)
    (rest : List Middleware) (passed : List RateHeaders) : Gateway :=
  let counter := cfg.count s.clock (s.redis key)
  { s.setRequest i request (cfg.decide s.clock counter.count rest passed) with
    redis := fun key' => if key' = key then some counter else s.redis key' }

theorem step_cases {a : GatewayAction} (h : Gateway.step P cfg s a = some s') :
    (∃ request, a = .arrive request ∧
      s' = { s with requests := s.requests ++ [(request, .inner middlewareStack [])] }) ∨
    (∃ i request st st', s.requests[i]? = some (request, st) ∧
      Proceeds P cfg s i request a st st' ∧ s' = s.setRequest i request st') ∨
    (∃ i request key rest passed, a = .execute i ∧
      s.requests[i]? = some (request, .counting key rest passed) ∧
      s' = counted cfg s i request key rest passed) ∨
    ∃ n, a = .tick n ∧ s' = { s with clock := s.clock + n } := by
  cases a with
  | arrive request => exact Or.inl ⟨request, rfl, (Option.some.inj h).symm⟩
  | enter i =>
    refine Or.inr (Or.inl ?_)
    simp only [Gateway.step] at h
    split at h
    · rename_i request passed hi
      exact ⟨i, request, _, _, hi, .reach passed, (Option.some.inj h).symm⟩
    · rename_i request rest passed hi
      split at h
      · rename_i key hkey
        exact ⟨i, request, _, _, hi, .limit key rest passed hkey, (Option.some.inj h).symm⟩
      · rename_i hkey
        exact ⟨i, request, _, _, hi, .pass _ rest passed fun _ => hkey, (Option.some.inj h).symm⟩
    · rename_i request m rest passed hm hi
      exact ⟨i, request, _, _, hi, .pass m rest passed fun he => absurd he (hm · ),
        (Option.some.inj h).symm⟩
    · simp at h
  | execute i =>
    refine Or.inr (Or.inr (Or.inl ?_))
    simp only [Gateway.step] at h
    split at h
    · rename_i request key rest passed hi
      exact ⟨i, request, key, rest, passed, rfl, hi, (Option.some.inj h).symm⟩
    · simp at h
  | redisError i =>
    refine Or.inr (Or.inl ?_)
    simp only [Gateway.step] at h
    split at h
    · rename_i request key rest passed hi
      exact ⟨i, request, _, _, hi, .failOpen key rest passed, (Option.some.inj h).symm⟩
    · simp at h
  | tick n => exact Or.inr (Or.inr (Or.inr ⟨n, rfl, (Option.some.inj h).symm⟩))

/-! ### The counter -/

/-- The request counts so often when it is answered: both limiters let it pass, or the second one
refuses it, or the first. -/
def Placed (K : String) : RequestState → Prop
  | .inner rest passed => passed.length + rest.count .rateLimit = 2
  | .counting key rest passed => key = K ∧ passed.length + rest.count .rateLimit + 1 = 2
  | .reached passed => passed.length = 2
  | .refused _ passed => passed.length ≤ 1

/-- How often Redis has counted the request. -/
def increments (st : RequestState) : ℕ := admissions st + refusals st

/-- The counter has counted the requests that are counted together and no other, and lives longer
than the window. -/
def CounterOk (cfg : RateLimit) (w n : ℕ) : Option Counter → Prop
  | none => n = 0
  | some c => c.count = n ∧ (w + 1) * (cfg.windowSeconds * second) < c.expireAt

theorem CounterOk.count {n : ℕ} {c : Option Counter} (h : CounterOk cfg w n c)
    (hW : 1 ≤ cfg.windowSeconds) {clock : ℕ} (hw : cfg.window clock = w) :
    (cfg.count clock c).count = n + 1 ∧
      (w + 1) * (cfg.windowSeconds * second) < (cfg.count clock c).expireAt := by
  have hpos : 0 < cfg.windowSeconds * second := Nat.mul_pos hW (by decide)
  have hlt : clock < (w + 1) * (cfg.windowSeconds * second) := by
    rw [← hw, RateLimit.window, Nat.mul_comm]
    exact Nat.lt_mul_div_succ clock hpos
  have hle : w * (cfg.windowSeconds * second) ≤ clock := by
    rw [← hw, RateLimit.window]
    exact Nat.div_mul_le_self clock _
  have hexpire : (w + 1) * (cfg.windowSeconds * second) <
      clock + (cfg.windowSeconds + 1) * second := by
    have hsecond : 0 < second := by decide
    rw [Nat.succ_mul, Nat.succ_mul]
    omega
  unfold RateLimit.count
  cases c with
  | none => exact ⟨congrArg (· + 1) h.symm, hexpire⟩
  | some c =>
    simp only [if_pos (hlt.trans h.2)]
    exact ⟨congrArg (· + 1) h.1, hexpire⟩

theorem decide_ne_counting {clock n : ℕ} {rest : List Middleware} {passed : List RateHeaders}
    (key : String) (rest' : List Middleware) (passed' : List RateHeaders) :
    cfg.decide clock n rest passed ≠ .counting key rest' passed' := by
  unfold RateLimit.decide
  split_ifs <;> simp

theorem placed_decide {K : String} {clock n : ℕ} {rest : List Middleware}
    {passed : List RateHeaders} (h : passed.length + rest.count .rateLimit + 1 = 2) :
    Placed K (cfg.decide clock n rest passed) := by
  unfold RateLimit.decide
  split_ifs
  · show passed.length ≤ 1
    omega
  · show (passed ++ [_]).length + _ = 2
    rw [List.length_append, List.length_singleton]
    omega

/-- A limiter that Redis has answered has counted once, whatever it decides. -/
theorem increments_decide {clock n : ℕ} {rest : List Middleware} {passed : List RateHeaders} :
    increments (cfg.decide clock n rest passed) = passed.length + 1 := by
  unfold RateLimit.decide
  split_ifs <;> simp [increments, admissions, refusals]

theorem admissions_decide {clock n : ℕ} {rest : List Middleware} {passed : List RateHeaders} :
    admissions (cfg.decide clock n rest passed) =
      passed.length + if n > cfg.requests then 0 else 1 := by
  unfold RateLimit.decide
  split_ifs <;> simp [admissions]

/-- What holds in every run. -/
structure Shared (P : Platform) (cfg : RateLimit) (k : String) (w : ℕ) (inWindow : ℕ → Bool)
    (s : Gateway) : Prop where
  identities : ∀ (i : ℕ) request st, s.requests[i]? = some (request, st) →
    ∀ k', request.xApiKey = some k' → identity P k' = identity P k → k' = k
  placed : ∀ (i : ℕ) request st, s.requests[i]? = some (request, st) →
    Grouped k inWindow i request → Placed (redisKey (identity P k) w) st
  others : ∀ (i : ℕ) request key rest passed,
    s.requests[i]? = some (request, .counting key rest passed) → ¬Grouped k inWindow i request →
      key ≠ redisKey (identity P k) w
  counter : CounterOk cfg w (tally k inWindow increments s) (s.redis (redisKey (identity P k) w))
  admitted : tally k inWindow admissions s =
    min (tally k inWindow increments s) cfg.requests

theorem tally_setRequest (k : String) (inWindow : ℕ → Bool) {i : ℕ} {request : HttpRequest}
    {st : RequestState} (hi : s.requests[i]? = some (request, st)) (f : RequestState → ℕ)
    (st' : RequestState) :
    tally k inWindow f (s.setRequest i request st') +
        (if Grouped k inWindow i request then f st else 0) =
      tally k inWindow f s + if Grouped k inWindow i request then f st' else 0 :=
  sumIdx_set hi (request, st')

theorem getElem?_setRequest {i j : ℕ} {request request' : HttpRequest} {st' st : RequestState}
    (h : (s.setRequest i request st').requests[j]? = some (request', st)) :
    (j = i ∧ request' = request ∧ st = st') ∨ s.requests[j]? = some (request', st) := by
  rw [Gateway.setRequest, List.getElem?_set] at h
  split_ifs at h with hij hlt
  · obtain ⟨rfl, rfl⟩ := Prod.mk.inj (Option.some.inj h)
    exact Or.inl ⟨hij.symm, rfl, rfl⟩
  · exact Or.inr h

namespace Shared

theorem init : Shared P cfg k w inWindow Gateway.init where
  identities i request st hi := by simp [Gateway.init] at hi
  placed i request st hi := by simp [Gateway.init] at hi
  others i request key rest passed hi := by simp [Gateway.init] at hi
  counter := rfl
  admitted := by simp [tally, Gateway.init]

theorem arrive (hJ : Shared P cfg k w inWindow s) {request : HttpRequest}
    (hid : ∀ k', request.xApiKey = some k' → identity P k' = identity P k → k' = k) :
    Shared P cfg k w inWindow
      { s with requests := s.requests ++ [(request, .inner middlewareStack [])] } := by
  have hnew : ∀ (i : ℕ) request' st, (s.requests ++ [(request, .inner middlewareStack [])])[i]? =
      some (request', st) → s.requests[i]? = some (request', st) ∨
        request' = request ∧ st = .inner middlewareStack [] := by
    intro i request' st hi
    rw [List.getElem?_append] at hi
    split_ifs at hi
    · exact Or.inl hi
    · obtain ⟨rfl, rfl⟩ := Prod.mk.inj (List.mem_singleton.mp (List.mem_of_getElem? hi))
      exact Or.inr ⟨rfl, rfl⟩
  have hsame : ∀ f : RequestState → ℕ, f (.inner middlewareStack []) = 0 →
      tally k inWindow f
        { s with requests := s.requests ++ [(request, .inner middlewareStack [])] } =
        tally k inWindow f s := by
    intro f hf
    unfold tally
    rw [sumIdx_concat, hf, ite_self, Nat.add_zero]
  refine ⟨fun i request' st hi => ?_, fun i request' st hi hg => ?_,
    fun i request' key rest passed hi hg => ?_, ?_, ?_⟩
  · rcases hnew i request' st hi with hi | ⟨rfl, -⟩
    · exact hJ.identities i request' st hi
    · exact hid
  · rcases hnew i request' st hi with hi | ⟨-, rfl⟩
    · exact hJ.placed i request' st hi hg
    · rfl
  · rcases hnew i request' _ hi with hi | ⟨-, he⟩
    · exact hJ.others i request' key rest passed hi hg
    · cases he
  · rw [hsame increments rfl]
    exact hJ.counter
  · rw [hsame increments rfl, hsame _ rfl]
    exact hJ.admitted

theorem moves (hJ : Shared P cfg k w inWindow s) (hk : k ≠ "") {a : GatewayAction} {i : ℕ}
    {request : HttpRequest} {st st' : RequestState} (hC : FallsIn P cfg k w inWindow s a)
    (hi : s.requests[i]? = some (request, st)) (hm : Proceeds P cfg s i request a st st') :
    Shared P cfg k w inWindow (s.setRequest i request st') := by
  -- what happens to a request that is counted with the others, and to one that is not
  have hgroup : Grouped k inWindow i request → Placed (redisKey (identity P k) w) st' ∧
      admissions st' = admissions st ∧ refusals st' = refusals st := by
    intro hg
    have hp := hJ.placed i request st hi hg
    cases hm with
    | reach passed => exact ⟨by simpa [Placed] using hp, rfl, rfl⟩
    | pass m rest passed hnone =>
      have hm : m ≠ .rateLimit := by
        intro he
        rw [key?_limited hg.1 hk] at hnone
        exact absurd (hnone he) (by simp)
      exact ⟨by simpa [Placed, List.count_cons_of_ne hm] using hp, rfl, rfl⟩
    | limit key rest passed hkey =>
      have hw := (hC request rest passed hi hg.1).mpr hg.2
      rw [key?_limited hg.1 hk, hw] at hkey
      refine ⟨⟨(Option.some.inj hkey).symm, ?_⟩, rfl, rfl⟩
      simpa [Placed, List.count_cons_self, Nat.add_assoc] using hp
    | failOpen key rest passed => exact absurd hg (hC request _ hi)
  have hother : ¬Grouped k inWindow i request → ∀ key rest passed,
      st' = .counting key rest passed → key ≠ redisKey (identity P k) w := by
    rintro hg key rest passed rfl rfl
    cases hm with
    | limit _ rest passed hkey =>
      obtain ⟨k', hlim, hkey⟩ := of_key? hkey
      obtain ⟨hid, hw⟩ := redisKey_inj hkey
      obtain rfl : k' = k := hJ.identities i request _ hi k' hlim.2.2 hid.symm
      exact hg ⟨hlim, (hC request rest passed hi hlim).mp hw.symm⟩
  have hsame : ∀ f : RequestState → ℕ, (Grouped k inWindow i request → f st' = f st) →
      tally k inWindow f (s.setRequest i request st') = tally k inWindow f s := by
    intro f hf
    have ht := tally_setRequest k inWindow hi f st'
    split_ifs at ht with hg
    · rw [hf hg] at ht
      omega
    · exact ht
  have hinc : tally k inWindow increments (s.setRequest i request st') =
      tally k inWindow increments s := by
    refine hsame increments fun hg => ?_
    obtain ⟨-, ha, hr⟩ := hgroup hg
    rw [increments, ha, hr, increments]
  refine ⟨fun j request' st₁ hj => ?_, fun j request' st₁ hj hg => ?_,
    fun j request' key rest passed hj hg => ?_, ?_, ?_⟩
  · rcases getElem?_setRequest hj with ⟨rfl, rfl, rfl⟩ | hj
    · exact hJ.identities j request' st hi
    · exact hJ.identities j request' st₁ hj
  · rcases getElem?_setRequest hj with ⟨rfl, rfl, rfl⟩ | hj
    · exact (hgroup hg).1
    · exact hJ.placed j request' st₁ hj hg
  · rcases getElem?_setRequest hj with ⟨rfl, rfl, he⟩ | hj
    · exact hother hg key rest passed he.symm
    · exact hJ.others j request' key rest passed hj hg
  · rw [hinc]
    exact hJ.counter
  · rw [hinc, hsame _ fun hg => (hgroup hg).2.1]
    exact hJ.admitted

theorem execute (hJ : Shared P cfg k w inWindow s) (hW : 1 ≤ cfg.windowSeconds) {i : ℕ}
    {request : HttpRequest} {key : String} {rest : List Middleware} {passed : List RateHeaders}
    (hi : s.requests[i]? = some (request, .counting key rest passed))
    (hC : Grouped k inWindow i request → cfg.window s.clock = w) :
    Shared P cfg k w inWindow (counted cfg s i request key rest passed) := by
  have hredis : ∀ key', (counted cfg s i request key rest passed).redis key' =
      if key' = key then some (cfg.count s.clock (s.redis key)) else s.redis key' := fun _ => rfl
  have hset : (counted cfg s i request key rest passed).requests =
      (s.setRequest i request (cfg.decide s.clock (cfg.count s.clock (s.redis key)).count rest
        passed)).requests := rfl
  have hsum : ∀ f, tally k inWindow f (counted cfg s i request key rest passed) =
      tally k inWindow f (s.setRequest i request (cfg.decide s.clock
        (cfg.count s.clock (s.redis key)).count rest passed)) := fun _ => rfl
  have htally := fun f => tally_setRequest k inWindow hi f
    (cfg.decide s.clock (cfg.count s.clock (s.redis key)).count rest passed)
  have hplace : Grouped k inWindow i request → key = redisKey (identity P k) w ∧
      passed.length + rest.count .rateLimit + 1 = 2 := hJ.placed i request _ hi
  constructor
  case identities =>
    intro j request' st hj
    rw [hset] at hj
    rcases getElem?_setRequest hj with ⟨rfl, rfl, -⟩ | hj
    · exact hJ.identities j request' _ hi
    · exact hJ.identities j request' st hj
  case placed =>
    intro j request' st hj hg
    rw [hset] at hj
    rcases getElem?_setRequest hj with ⟨rfl, rfl, rfl⟩ | hj
    · exact placed_decide (hplace hg).2
    · exact hJ.placed j request' st hj hg
  case others =>
    intro j request' key' rest' passed' hj hg
    rw [hset] at hj
    rcases getElem?_setRequest hj with ⟨rfl, rfl, he⟩ | hj
    · exact absurd he.symm (decide_ne_counting _ _ _)
    · exact hJ.others j request' key' rest' passed' hj hg
  case counter =>
    rw [hredis, hsum]
    have hinc := htally increments
    by_cases hg : Grouped k inWindow i request
    · obtain rfl := (hplace hg).1
      have hcount := (hJ.counter.count hW (hC hg)).1
      have hexpire := (hJ.counter.count hW (hC hg)).2
      have hold : increments (.counting (redisKey (identity P k) w) rest passed) =
        passed.length := rfl
      rw [if_pos hg, if_pos hg, increments_decide, hold] at hinc
      rw [if_pos rfl]
      exact ⟨by omega, hexpire⟩
    · rw [if_neg hg, if_neg hg] at hinc
      rw [if_neg (hJ.others i request key rest passed hi hg).symm,
        show tally k inWindow increments _ = tally k inWindow increments s from hinc]
      exact hJ.counter
  case admitted =>
    rw [hsum, hsum]
    have hinc := htally increments
    have hadm := htally admissions
    have hmin := hJ.admitted
    by_cases hg : Grouped k inWindow i request
    · obtain rfl := (hplace hg).1
      obtain ⟨hcount, -⟩ := hJ.counter.count hW (hC hg)
      have hold : increments (.counting (redisKey (identity P k) w) rest passed) =
        passed.length := rfl
      have hold' : admissions (.counting (redisKey (identity P k) w) rest passed) =
        passed.length := rfl
      rw [if_pos hg, if_pos hg, increments_decide, hold] at hinc
      rw [if_pos hg, if_pos hg, admissions_decide, hold', hcount] at hadm
      rw [hcount] at hinc ⊢
      -- the limiter lets the request pass as long as the counter is within the limit
      split_ifs at hadm with hlimit <;> omega
    · rw [if_neg hg, if_neg hg] at hinc hadm
      omega

theorem step (hJ : Shared P cfg k w inWindow s) (hW : 1 ≤ cfg.windowSeconds) (hk : k ≠ "")
    {a : GatewayAction} (hC : FallsIn P cfg k w inWindow s a)
    (h : Gateway.step P cfg s a = some s') : Shared P cfg k w inWindow s' := by
  obtain ⟨request, rfl, rfl⟩ | ⟨i, request, st, st', hi, hm, rfl⟩ |
    ⟨i, request, key, rest, passed, rfl, hi, rfl⟩ | ⟨n, rfl, rfl⟩ := step_cases h
  · exact hJ.arrive hC
  · exact hJ.moves hk hC hi hm
  · exact hJ.execute hW hi (hC request _ hi)
  · exact ⟨hJ.identities, hJ.placed, hJ.others, hJ.counter, hJ.admitted⟩

end Shared

/-! ### The requests that reach the endpoint -/

/-- **Main result.** Of the requests with one API key that fall in one window the configured number
reaches the endpoint, and the others are answered 429, if and only if the limit admits each of them
twice, or none. -/
theorem rateLimit_exact_iff (hW : 1 ≤ cfg.windowSeconds) (hk : k ≠ "")
    (hs : Reaches (Gateway.step P cfg) (FallsIn P cfg k w inWindow) Gateway.init s)
    (hEnd : AllAnswered k inWindow s) :
    (reachedRequests k inWindow s = min (groupedRequests k inWindow s) cfg.requests ∧
      refusedRequests k inWindow s =
        groupedRequests k inWindow s - min (groupedRequests k inWindow s) cfg.requests) ↔
      (cfg.requests = 0 ∨ 2 * groupedRequests k inWindow s ≤ cfg.requests) := by
  have hJ : Shared P cfg k w inWindow s :=
    hs.invariant Shared.init fun hJ hC h => hJ.step hW hk hC h
  have hcol : ∀ {f g : RequestState → ℕ}, (∀ st, Placed (redisKey (identity P k) w) st →
      ((∃ passed, st = .reached passed) ∨ ∃ r passed, st = .refused r passed) → f st ≤ g st) →
      tally k inWindow f s ≤ tally k inWindow g s := by
    intro f g h
    refine sumIdx_le fun i e hi => ?_
    split_ifs with hg
    · exact h e.2 (hJ.placed i e.1 e.2 hi hg) (hEnd i e.1 e.2 hi hg)
    · exact Nat.le_refl _
  have hsum : ∀ f g : RequestState → ℕ, tally k inWindow (fun st => f st + g st) s =
      tally k inWindow f s + tally k inWindow g s := by
    intro f g
    unfold tally
    rw [← sumIdx_add]
    congr 1
    funext i e
    split_ifs <;> rfl
  -- an answered request has reached the endpoint or was refused
  have hends : tally k inWindow (fun st => arrivals st + refusals st) s =
      tally k inWindow (fun _ => 1) s := by
    refine Nat.le_antisymm (hcol fun st _ he => ?_) (hcol fun st _ he => ?_) <;>
      rcases he with ⟨passed, rfl⟩ | ⟨r, passed, rfl⟩ <;> exact Nat.le_refl _
  -- it has used two of the limit in the first case, and counted at most twice in both
  have htwice : tally k inWindow (fun st => arrivals st + arrivals st) s ≤
      tally k inWindow admissions s := by
    refine hcol fun st hp he => ?_
    rcases he with ⟨passed, rfl⟩ | ⟨r, passed, rfl⟩
    · exact Nat.le_of_eq hp.symm
    · exact Nat.zero_le _
  have hmost : tally k inWindow increments s ≤ tally k inWindow (fun _ => 1 + 1) s := by
    refine hcol fun st hp he => ?_
    rcases he with ⟨passed, rfl⟩ | ⟨r, passed, rfl⟩
    · exact Nat.le_of_eq hp
    · exact Nat.succ_le_succ hp
  have hinc := hsum admissions refusals
  have hmin := hJ.admitted
  rw [hsum] at hends htwice hmost
  unfold reachedRequests refusedRequests groupedRequests
  unfold increments at hmin hmost
  omega

/-- The platform with the SHA-256 of `merchant_api_key`. -/
def keyPlatform : Platform :=
  { examplePlatform with sha256Hex := fun s =>
      if s = "merchant-development-key" then
        "7b06d29bce9dad1b59dd783379b65d206a0c1e28f6c3b16c16fb79e9f2643c29"
      else s }

/-- A request of the merchant. -/
def merchantRequest : HttpRequest := ⟨"/v1/payments", some "merchant-development-key"⟩

/-- A request enters the next middleware and then a limiter, and Redis counts it. -/
def countOnce (i : ℕ) : List GatewayAction := [.enter i, .enter i, .execute i]

/-- All requests are those of the merchant, and the window is the first. -/
def merchantOnly (cfg : RateLimit) (s : Gateway) : GatewayAction → Bool
  | .arrive request => request.xApiKey == some "merchant-development-key"
  | .enter _ | .execute _ => cfg.window s.clock == 0
  | .redisError _ => false
  | .tick _ => true

theorem fallsIn_merchantOnly (s : Gateway) (a : GatewayAction)
    (h : merchantOnly cfg s a = true) :
    FallsIn keyPlatform cfg "merchant-development-key" 0 (fun _ => true) s a := by
  cases a with
  | arrive request =>
    intro k' hk' _
    rw [eq_of_beq h] at hk'
    exact (Option.some.inj hk').symm
  | enter i => exact fun _ _ _ _ _ => iff_of_true (eq_of_beq h) rfl
  | execute i => exact fun _ _ _ _ => eq_of_beq h
  | redisError i => cases h
  | tick n => trivial

theorem answered_of_all (h : (s.requests.all fun e => arrivals e.2 + refusals e.2 == 1) = true) :
    AllAnswered k inWindow s := by
  intro i request st hi _
  have hst := eq_of_beq (List.all_eq_true.mp h _ (List.mem_of_getElem? hi))
  cases st with
  | reached passed => exact Or.inl ⟨passed, rfl⟩
  | refused r passed => exact Or.inr ⟨r, passed, rfl⟩
  | _ => cases hst

/-- Two requests under a limit of four take turns at Redis, and both reach the endpoint. -/
theorem rateLimit_exact_iff_merchant : ∃ s : Gateway,
    groupedRequests "merchant-development-key" (fun _ => true) s = 2 ∧
    ((reachedRequests "merchant-development-key" (fun _ => true) s =
        min (groupedRequests "merchant-development-key" (fun _ => true) s) 4 ∧
      refusedRequests "merchant-development-key" (fun _ => true) s =
        groupedRequests "merchant-development-key" (fun _ => true) s -
          min (groupedRequests "merchant-development-key" (fun _ => true) s) 4) ↔
      (4 = 0 ∨ 2 * groupedRequests "merchant-development-key" (fun _ => true) s ≤ 4)) := by
  have h : (runSteps (Gateway.step keyPlatform ⟨4, 60⟩) (merchantOnly ⟨4, 60⟩) .init
      ([.arrive merchantRequest, .arrive merchantRequest, .tick second] ++ countOnce 0 ++
        countOnce 1 ++ countOnce 1 ++ [.enter 1, .enter 1] ++ countOnce 0 ++
        [.enter 0, .enter 0])).map (fun s =>
          (groupedRequests "merchant-development-key" (fun _ => true) s,
            s.requests.all fun e => arrivals e.2 + refusals e.2 == 1)) = some (2, true) := by
    decide +kernel
  obtain ⟨s, hs, h⟩ := Option.map_eq_some_iff.mp h
  obtain ⟨hgrouped, hall⟩ := Prod.mk.inj h
  have hreach : Reaches (Gateway.step keyPlatform ⟨4, 60⟩)
      (FallsIn keyPlatform ⟨4, 60⟩ "merchant-development-key" 0 fun _ => true) .init s :=
    Reaches.runSteps fallsIn_merchantOnly .refl hs
  exact ⟨s, hgrouped,
    rateLimit_exact_iff (by decide) (by decide) hreach (answered_of_all hall)⟩

/-- Two requests under a limit of two: the first counts twice, and the second is answered 429. -/
theorem second_refused : ∃ s : Gateway,
    Reaches (Gateway.step keyPlatform ⟨2, 60⟩)
      (FallsIn keyPlatform ⟨2, 60⟩ "merchant-development-key" 0 fun _ => true) .init s ∧
    AllAnswered "merchant-development-key" (fun _ => true) s ∧
    groupedRequests "merchant-development-key" (fun _ => true) s = 2 ∧
    reachedRequests "merchant-development-key" (fun _ => true) s = 1 ∧
    refusedRequests "merchant-development-key" (fun _ => true) s = 1 := by
  have h : (runSteps (Gateway.step keyPlatform ⟨2, 60⟩) (merchantOnly ⟨2, 60⟩) .init
      ([.arrive merchantRequest] ++ countOnce 0 ++ countOnce 0 ++ [.enter 0, .enter 0] ++
        [.arrive merchantRequest] ++ countOnce 1)).map (fun s =>
          (s.requests.all fun e => arrivals e.2 + refusals e.2 == 1,
            groupedRequests "merchant-development-key" (fun _ => true) s,
            reachedRequests "merchant-development-key" (fun _ => true) s,
            refusedRequests "merchant-development-key" (fun _ => true) s)) =
      some (true, 2, 1, 1) := by
    decide +kernel
  obtain ⟨s, hs, h⟩ := Option.map_eq_some_iff.mp h
  simp only [Prod.mk.injEq] at h
  obtain ⟨hall, hgrouped, hreached, hrefused⟩ := h
  exact ⟨s, Reaches.runSteps fallsIn_merchantOnly .refl hs, answered_of_all hall, hgrouped,
    hreached, hrefused⟩

end Payflow.Safety
