import Payflow.Model.Sql

/-! # rate_limit.py, behind the middleware of main.py

Requests pass through the middleware that `main.py` has added, the last added first, down to the
endpoint. A limiter reads the clock, then Redis executes its `INCR` and `EXPIRE` at once, or raises;
other requests run in between. `RequestContextMiddleware` and the middleware of the instrumentator
pass every request on. The headers of the responses are those that the limiters set. -/

namespace Payflow.Model

/-- `RATE_LIMIT_REQUESTS` and `RATE_LIMIT_WINDOW_SECONDS`. -/
structure RateLimit where
  requests : ℕ
  windowSeconds : ℕ

/-- The middleware of the application. -/
inductive Middleware where
  | requestContext | rateLimit | instrumentator
  deriving DecidableEq

/-- `app.add_middleware`: one more middleware around the application. -/
def addMiddleware (stack : List Middleware) (m : Middleware) : List Middleware := m :: stack

/-- The middleware that `main.py` adds, in this order, from the outermost to the innermost. -/
def middlewareStack : List Middleware :=
  [Middleware.requestContext, .rateLimit, .requestContext, .rateLimit, .instrumentator].foldl
    addMiddleware []

/-- What the limiters read of a request. -/
structure HttpRequest where
  path : String
  xApiKey : Option String

/-- A key of Redis with its count and the time it expires at. -/
structure Counter where
  count : ℕ
  expireAt : ℕ

/-- The headers `X-RateLimit-Limit`, `X-RateLimit-Remaining` and `X-RateLimit-Reset`. -/
structure RateHeaders where
  limit : ℕ
  remaining : ℕ
  reset : ℕ

/-- The response 429. -/
structure TooManyRequests where
  content : Json
  retryAfter : ℕ
  headers : RateHeaders

/-- How far a request has come: it enters the rest of the middleware, it is in a limiter that has
made its key, it has reached the endpoint, or it was refused. `passed` are the headers that the
limiters it has passed will set on the response, the outermost first. -/
inductive RequestState where
  | inner (rest : List Middleware) (passed : List RateHeaders)
  | counting (redisKey : String) (rest : List Middleware) (passed : List RateHeaders)
  | reached (passed : List RateHeaders)
  | refused (r : TooManyRequests) (passed : List RateHeaders)

/-- `path.startswith(start)`. -/
def startsWith (path start : String) : Bool := start.toList.isPrefixOf path.toList

/-- `identity` of an API key. -/
def identity (P : Platform) (apiKey : String) : String :=
  String.ofList ((P.sha256Hex apiKey).toList.take 24)

/-- `int(time.time() // RATE_LIMIT_WINDOW_SECONDS)`. -/
def RateLimit.window (cfg : RateLimit) (clock : ℕ) : ℕ := clock / (cfg.windowSeconds * second)

/-- `redis_key`. -/
@[irreducible]
def redisKey (identity : String) (window : ℕ) : String :=
  String.ofList ("rate-limit:".toList ++ identity.toList ++ ':' :: (toString window).toList)

/-- The key that `dispatch` counts under, or `none` if it only calls the next one. -/
def RateLimit.key? (P : Platform) (cfg : RateLimit) (clock : ℕ) (request : HttpRequest) :
    Option String :=
  if !startsWith request.path "/v1/" then none
  else if startsWith request.path "/v1/webhooks/" then none
  else
    match request.xApiKey with
    | none => none
    | some apiKey =>
      if apiKey = "" then none else some (redisKey (identity P apiKey) (cfg.window clock))

/-- `INCR` and `EXPIRE` of a key: the new count, and the key. -/
def RateLimit.count (cfg : RateLimit) (clock : ℕ) (counter : Option Counter) : Counter :=
  let expireAt := clock + (cfg.windowSeconds + 1) * second
  match counter with
  | some c => if clock < c.expireAt then ⟨c.count + 1, expireAt⟩ else ⟨1, expireAt⟩
  | none => ⟨1, expireAt⟩

/-- `reset_seconds`. -/
def RateLimit.resetSeconds (cfg : RateLimit) (clock : ℕ) : ℕ :=
  cfg.windowSeconds - clock / second % cfg.windowSeconds

/-- The response to a request that is refused. -/
def RateLimit.tooMany (cfg : RateLimit) (clock : ℕ) : TooManyRequests where
  content := .obj [("detail", .str "Rate limit exceeded"), ("limit", .int cfg.requests),
    ("window_seconds", .int cfg.windowSeconds),
    ("retry_after_seconds", .int (cfg.resetSeconds clock))]
  retryAfter := cfg.resetSeconds clock
  headers := ⟨cfg.requests, 0, cfg.resetSeconds clock⟩

/-- The rest of `dispatch` when Redis has answered. -/
def RateLimit.decide (cfg : RateLimit) (clock requestCount : ℕ) (rest : List Middleware)
    (passed : List RateHeaders) : RequestState :=
  if requestCount > cfg.requests then .refused (cfg.tooMany clock) passed
  else .inner rest
    (passed ++ [⟨cfg.requests, cfg.requests - requestCount, cfg.resetSeconds clock⟩])

/-- The clock, Redis, and the requests by number. -/
structure Gateway where
  clock : ℕ
  redis : String → Option Counter
  requests : List (HttpRequest × RequestState)

/-- A request arrives; it enters the next middleware, or the endpoint; Redis executes the pipeline
of the limiter it is in, or raises a `RedisError`; time passes. -/
inductive GatewayAction where
  | arrive (request : HttpRequest)
  | enter (i : ℕ)
  | execute (i : ℕ)
  | redisError (i : ℕ)
  | tick (n : ℕ)

namespace Gateway

/-- The request changes. -/
def setRequest (s : Gateway) (i : ℕ) (request : HttpRequest) (st : RequestState) : Gateway :=
  { s with requests := s.requests.set i (request, st) }

/-- One step. -/
def step (P : Platform) (cfg : RateLimit) (s : Gateway) : GatewayAction → Option Gateway
  | .arrive request =>
    some { s with requests := s.requests ++ [(request, .inner middlewareStack [])] }
  | .enter i =>
    match s.requests[i]? with
    | some (request, .inner [] passed) => some (s.setRequest i request (.reached passed))
    | some (request, .inner (.rateLimit :: rest) passed) =>
      match cfg.key? P s.clock request with
      | some key => some (s.setRequest i request (.counting key rest passed))
      | none => some (s.setRequest i request (.inner rest passed))
    | some (request, .inner (_ :: rest) passed) =>
      some (s.setRequest i request (.inner rest passed))
    | _ => none
  | .execute i =>
    match s.requests[i]? with
    | some (request, .counting key rest passed) =>
      let counter := cfg.count s.clock (s.redis key)
      some { s.setRequest i request (cfg.decide s.clock counter.count rest passed) with
        redis := fun key' => if key' = key then some counter else s.redis key' }
    | _ => none
  | .redisError i =>
    match s.requests[i]? with
    | some (request, .counting _ rest passed) => some (s.setRequest i request (.inner rest passed))
    | _ => none
  | .tick n => some { s with clock := s.clock + n }

/-- Before the first request. -/
def init : Gateway := ⟨0, fun _ => none, []⟩

end Gateway

end Payflow.Model
