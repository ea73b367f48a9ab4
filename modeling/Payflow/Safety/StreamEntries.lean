import Payflow.Safety.Publication
import Payflow.Safety.PublicationOrder
import Payflow.Spec.StreamReader

/-! # What the stream says

The transactions write small payloads: a dict with different keys, whose values `jsonb` gives back as
they are. So a consumer of the stream can read every entry, and it finds the event of a row of the outbox, with what
the transaction wrote under each key. -/

namespace Payflow.Safety

open Payflow.Lib Payflow.Model Payflow.Spec

variable {P : Platform} {D : Db}

/-! ### The payloads -/

/-- A value that can be read, and that `jsonb` gives back as it is. -/
def Plain (v : Json) : Prop := legible v = true ∧ v.jsonb = v

/-- A dict of such values, with different keys. -/
def Flat (v : Json) : Prop :=
  ∃ l : List (String × Json), v = .obj l ∧ (l.map (·.1)).Nodup ∧ ∀ x ∈ l, Plain x.2

theorem plainFields : ∀ {l : List (String × Json)}, (∀ x ∈ l, Plain x.2) →
    legibleFields l = true ∧ Json.jsonbFields l = l
  | [], _ => ⟨rfl, rfl⟩
  | (k, v) :: l, h => by
    obtain ⟨hv, hsame⟩ := h (k, v) List.mem_cons_self
    obtain ⟨hl, hsames⟩ := plainFields fun x hx => h x (List.mem_cons_of_mem _ hx)
    exact ⟨by rw [legibleFields, hv, hl]; rfl, by rw [Json.jsonbFields, hsame, hsames]⟩

/-- What `jsonb` gives back can be read, and has the same values. -/
theorem Flat.jsonb {v : Json} (h : Flat v) :
    legible v.jsonb = true ∧ ∀ key, v.jsonb.getItem key = v.getItem key := by
  obtain ⟨l, rfl, hn, hplain⟩ := h
  have hperm : ((Json.jsonbFields l).insertionSort fun a b => jsonbKeyLe a.1 b.1).Perm l := by
    rw [(plainFields hplain).2]
    exact List.perm_insertionSort _ _
  refine ⟨(plainFields fun x hx => hplain x (hperm.mem_iff.mp hx)).1, fun key => ?_⟩
  unfold Json.jsonb Json.getItem
  simp only
  rw [lookup_perm hperm.symm hn key]

/-- The payloads of the outbox. -/
def PayloadsFlat (rows : List OutboxEvent) : Prop := ∀ row ∈ rows, Flat row.payload

theorem payloads_nil : PayloadsFlat [] := fun _ hrow => by cases hrow

theorem payloads_one {row : OutboxEvent} {l : List (String × Json)} (hl : row.payload = .obj l)
    (hn : (l.map (·.1)).Nodup) (h : ∀ x ∈ l, Plain x.2) : PayloadsFlat [row] := by
  intro row' hrow'
  obtain rfl := List.mem_singleton.mp hrow'
  exact ⟨l, hl, hn, h⟩

theorem plain_str (s : String) : Plain (.str s) := ⟨rfl, rfl⟩

theorem plain_int (i : ℤ) : Plain (.int i) := ⟨rfl, rfl⟩

mutual

theorem plain_of_scalars : ∀ {v : Json}, (∀ x ∈ v.scalars, (x.typeName == "str") = true) → Plain v
  | .null, _ | .bool _, _ | .int _, _ | .str _, _ => ⟨rfl, rfl⟩
  | .float t, h => by cases h (.float t) List.mem_cons_self
  | .obj l, h => by cases h (.obj l) List.mem_cons_self
  | .arr l, h => by
    obtain ⟨hl, hsame⟩ := plain_of_scalarsItems (l := l) h
    exact ⟨hl, congrArg Json.arr hsame⟩

theorem plain_of_scalarsItems : ∀ {l : List Json},
    (∀ x ∈ Json.scalarsItems l, (x.typeName == "str") = true) →
      legibleItems l = true ∧ Json.jsonbItems l = l
  | [], _ => ⟨rfl, rfl⟩
  | v :: l, h => by
    obtain ⟨hv, hsame⟩ := plain_of_scalars fun x hx => h x (List.mem_append_left _ hx)
    obtain ⟨hl, hsames⟩ := plain_of_scalarsItems fun x hx => h x (List.mem_append_right _ hx)
    exact ⟨by rw [legibleItems, hv, hl]; rfl, by rw [Json.jsonbItems, hsame, hsames]⟩

end

/-- A field that is used as the id of a payment is a text, or a list of texts. -/
theorem plain_of_uuidParam {field : Json} {p : Uuid} (h : field.uuidParam P = .ok (some p)) :
    Plain field := by
  cases field with
  | str s => exact plain_str s
  | arr l =>
    refine plain_of_scalars (List.all_eq_true.mp ?_)
    cases hl : Json.listParam P l with
    | error e => simp [Json.uuidParam, hl] at h
    | ok t =>
      unfold Json.listParam at hl
      split at hl
      · split_ifs at hl with huntyped
        exact huntyped
      · cases hl
  | _ => cases h

/-- **A commit writes payloads of this kind only.** -/
theorem payloads_of_does {b : Block} {now : ℕ} {ws : List Write} {r : BRes b}
    (h : Does P b now D ws r) : PayloadsFlat (ws.filterMap newOutboxEvent?) := by
  cases b with
  | getExistingPayment | getPayment | reconcileSelect | getRefund | selectProviderPaymentId =>
    rw [h.1]
    exact payloads_nil
  | createIdempotentPayment m k hash u a c =>
    rcases h with ⟨id, event, c', -, -, -, -, -, rfl⟩ | ⟨row, -, -, -, rfl⟩
    · exact payloads_nil
    · exact payloads_nil
  | recordTransition q type new provider failure =>
    obtain ⟨row, -, ⟨-, rfl⟩ | ⟨-, prov, fail, event, outbox, -, -, rfl⟩⟩ := h
    · exact payloads_nil
    · exact payloads_one rfl (by simp) (by simp [plain_str])
  | recordAwaitingWebhook q provider =>
    obtain ⟨row, -, ⟨-, rfl⟩ | ⟨-, prov, event, -, rfl⟩⟩ := h
    · exact payloads_nil
    · exact payloads_nil
  | recordRetry q reason =>
    obtain ⟨row, -, ⟨-, rfl⟩ | ⟨-, event, rfl⟩⟩ := h
    · exact payloads_nil
    · exact payloads_nil
  | receiveProviderWebhook payload =>
    obtain ⟨eventId, -, rfl⟩ | ⟨w, eventId, field, q, row, status, -, -, -, -, hid, -, -, h⟩ := h
    · exact payloads_nil
    rcases h with ⟨-, -, rfl⟩ | ⟨-, -, provider, event, outbox, -, rfl⟩
    · exact payloads_nil
    · exact payloads_one rfl (by simp) (by simp [plain_str, plain_of_uuidParam hid])
  | reconcileOne q status =>
    obtain ⟨-, rfl⟩ | ⟨-, row, event, outbox, -, -, rfl⟩ := h
    · exact payloads_nil
    · exact payloads_one rfl (by simp) (by simp [plain_str])
  | createRefund q m k a =>
    obtain ⟨row, id, c, e₁, e₂, e₃, -, -, -, -, -, -, -, -, -, rfl, rfl⟩ | ⟨_, -, -, rfl⟩ := h
    · exact payloads_one rfl (by simp) (by simp [plain_str, plain_int])
    · exact payloads_nil
  | recordRefundTransition q type new provider failure =>
    obtain ⟨row, -, ⟨-, rfl⟩ | ⟨-, prov, event, outbox, rfl⟩⟩ := h
    · exact payloads_nil
    · exact payloads_one rfl (by simp) (by simp [plain_str])
  | recordRefundRetry q reason =>
    obtain rfl | ⟨row, event, -, -, rfl⟩ := h
    · exact payloads_nil
    · exact payloads_nil
  | completeSuccessfulRefund q =>
    obtain ⟨refund, row, total, event, outbox, -, -, -, -, rfl⟩ := h
    exact payloads_one rfl (by simp) (by simp [plain_str, plain_int])
  | restorePaymentAfterFailedRefund q =>
    obtain ⟨rfl, -⟩ | ⟨refund, row, -, -, -, rfl⟩ := h
    · exact payloads_nil
    · exact payloads_nil

theorem payloads_of_reachable {s : State P} (h : Reachable P s) :
    PayloadsFlat s.db.outboxEvents := by
  refine db_invariant (I := fun D => PayloadsFlat D.outboxEvents) payloads_nil
    (fun _ _ hdoes _ ih => ?_) (reachableWhen_true h)
  rw [outboxEvents_applyAll]
  intro row hrow
  rcases List.mem_append.mp hrow with hrow | hrow
  · exact ih row hrow
  · exact payloads_of_does hdoes row hrow

/-! ### The entries -/

/-- The message says what the row says. -/
structure Conveys (m : OutboxMessage) (row : OutboxEvent) : Prop where
  eventId : m.eventId = row.id
  aggregateId : m.aggregateId = row.aggregateId
  eventType : m.eventType = row.eventType
  createdAt : m.createdAt = row.createdAt
  payload : ∀ key, m.payload.getItem key = row.payload.getItem key

theorem exists_message {row : OutboxEvent} (h : Flat row.payload) :
    ∃ m, readEntry (streamEntry row) = some m ∧ Conveys m row :=
  ⟨_, readEntry_streamEntry h.jsonb.1, rfl, rfl, rfl, rfl, h.jsonb.2⟩

theorem flat_marked (ms : List Mark) {row : OutboxEvent} (h : Flat row.payload) :
    Flat (marked ms row).payload := by
  unfold marked
  split
  · exact h
  · exact h

/-- **Every entry of the stream is read back**: in every run of the system and of any number of
publishers, a consumer finds in it the event of a row of the outbox, with its time and with what the
transaction has written under each key; and it finds each event that is published. -/
theorem stream_read_back {C : OutboxState P → OutboxAction P → Prop} {s : OutboxState P}
    (h : OutboxReachable P C s) :
    (∀ x ∈ s.stream, ∃ m, readEntry x = some m ∧ ∃ row ∈ s.rows, Conveys m row) ∧
    ∀ row ∈ s.rows, row.status = .published →
      ∃ x ∈ s.stream, ∃ m, readEntry x = some m ∧ Conveys m row := by
  have hok := outboxOk_of_reachable h
  have hflat := payloads_of_reachable hok.app
  have hentry : ∀ base ∈ s.app.db.outboxEvents, ∃ m, readEntry (streamEntry base) = some m ∧
      Conveys m (marked s.marks base) := by
    intro base hbase
    have hmessage := exists_message (flat_marked s.marks (hflat base hbase))
    rwa [streamEntry_marked] at hmessage
  constructor
  · intro x hx
    obtain ⟨base, hbase, rfl⟩ := hok.stream x hx
    obtain ⟨m, hm, hconveys⟩ := hentry base hbase
    exact ⟨m, hm, _, List.mem_map_of_mem hbase, hconveys⟩
  · intro row hrow hst
    obtain ⟨base, hbase, rfl⟩ := List.mem_map.mp hrow
    rcases waits_or_inStream hok hrow with hwaits | hin
    · rw [hwaits.status] at hst
      cases hst
    · obtain ⟨x, hx, hid, -⟩ := hin.entry
      obtain ⟨base', hbase', rfl⟩ := hok.stream x hx
      have hsame : base'.id = base.id := Uuid.text_inj (hid.trans (by rw [marked_id]))
      obtain rfl := eq_of_key hok.ids hbase' hbase hsame
      exact ⟨_, hx, hentry base' hbase'⟩

/-- One of two events is published. -/
theorem stream_read_back_firstFails : ∃ s : OutboxState examplePlatform,
    s.rows.map (·.status) = [.pending, .published] ∧
    (∀ x ∈ s.stream, ∃ m, readEntry x = some m ∧ ∃ row ∈ s.rows, Conveys m row) ∧
    ∀ row ∈ s.rows, row.status = .published →
      ∃ x ∈ s.stream, ∃ m, readEntry x = some m ∧ Conveys m row := by
  have h : (runSteps OutboxState.step (fun _ _ => true) (.init _) firstFails).map
      (fun s => s.rows.map (·.status)) = some [.pending, .published] := by
    decide +kernel
  obtain ⟨s, hs, h⟩ := Option.map_eq_some_iff.mp h
  exact ⟨s, h, stream_read_back (C := fun _ _ => True)
    (.runSteps (fun _ _ _ => trivial) .refl hs)⟩

end Payflow.Safety
