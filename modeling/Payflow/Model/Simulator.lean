import Payflow.Model.Network

/-! # The provider by itself

The handlers of `provider_simulator/main.py` for any requests, in any interleaving at their `await`
points, whoever sends them. Between two of its awaits a handler runs alone. The background task
`deliver_webhook` changes no record and is left out. -/

namespace Payflow.Model

open Payflow.Lib

/-- The provider and the handlers that sleep, with the ids of their records and their requests. -/
structure Simulator where
  provider : Provider
  asleep : List (String × Ext)

/-- A request comes in, and its handler runs up to its first `await` or its end; `id` is the id of
a new record, `text` what FastAPI answers to a body that it does not accept. Or a handler that sleeps
goes on. -/
inductive SimulatorAction where
  | receive (request : Ext) (id text : String)
  | wake (i : ℕ)

namespace Simulator

/-- One step. -/
def step (P : Platform) (s : Simulator) : SimulatorAction → Option Simulator
  | .receive request id text =>
    match handle P s.provider id text request with
    | some (S, .asleep id) => some ⟨S, s.asleep ++ [(id, request)]⟩
    | some (S, .ended _) => some ⟨S, s.asleep⟩
    | none => none
  | .wake i =>
    match s.asleep[i]? with
    | some (id, request) =>
      match wakeHandler s.provider id request with
      | some (S, _) => some ⟨S, s.asleep.eraseIdx i⟩
      | none => none
    | none => none

/-- Before the first request. -/
def init : Simulator := ⟨⟨[], [], []⟩, []⟩

end Simulator

end Payflow.Model
