import Payflow.Spec.Footprint
import Payflow.Spec.Runs

/-! # Calls that make a row and send its task

A call of `create_payment` or of `create_refund` either makes a row, sends the task of
it and answers, or gets the row that is there. `Creation` says what is particular to one
of the two. That every row has one maker, who alone sends its task, and once, is proved
for both here (`creating_step`). -/

namespace Payflow.Spec

open Payflow.Lib Payflow.Model

/-- How far a call has come: it has nothing yet, it has made a row, it has sent its task, or it has
got the row that was there. -/
inductive Turn (Row : Type) where
  | waiting
  | won (row : Row)
  | sent (row : Row)
  | same (row : Row)

/-- The call has made the row. -/
def Wins {Row : Type} (turn : Turn Row) (row : Row) : Prop := turn = .won row ∨ turn = .sent row

/-- A kind of call that makes rows: which processes are such calls, the rows and what they are
later, what a row holds that a call has made (`Stored`) or gets (`Matches`), the transactions that
make rows, the tasks of a row, and the protocol of a call. -/
structure Creation (P : Platform) where
  Request : Type
  Row : Type
  request? : Start P → Option Request
  id : Row → Uuid
  find : Db → Uuid → Option Row
  Later : Row → Row → Prop
  Stored : Request → Row → Prop
  Matches : Request → Row → Prop
  Makes : Block → Prop
  ofTask : Uuid → Task → Bool
  protocol : Request → Protocol (Call Block Ext) (Call.Res BRes ERes Exn) (Turn Row)
  Returns : Request → Turn Row → Ans → Prop

namespace Creation

variable {P : Platform} (C : Creation P)

/-- The process makes no row, and sends no task of one for the first time. -/
def Other (o : Call Block Ext) : Prop :=
  (∀ b, o = .txn b → ¬ C.Makes b) ∧
    ∀ e task, o = .ext e → Sends e task 0 → ∀ id, C.ofTask id task = false

/-- The protocol of a call, and of everything else. -/
def protocolOf : Option C.Request → Protocol (Call Block Ext) (Call.Res BRes ERes Exn) (Turn C.Row)
  | some call => C.protocol call
  | none => ⟨fun _ o => C.Other o, fun turn _ _ => turn⟩

/-- Every process has the protocol of what it was started as. -/
def discipline : Discipline (payflow P) (Option C.Request) (Turn C.Row) where
  role _ x := some (C.request? x)
  protocol := C.protocolOf
  first := .waiting
  Returns
    | some call, turn, a => C.Returns call turn a
    | none, _, _ => True
  Raises _ _ _ := True

/-- What is asked of a kind of call. A row stays what it was; only the named transactions make rows;
a commit of a call that has nothing makes a row or gets one, and an external action sends the task
of a row that the call has made, or nothing. -/
structure Lawful : Prop where
  refl : ∀ row, C.Later row row
  trans : ∀ {row row' row''}, C.Later row row' → C.Later row' row'' → C.Later row row''
  later : ∀ {D D'}, Grown D D' → ∀ {id row}, C.find D id = some row →
    ∃ row', C.find D' id = some row' ∧ C.Later row row'
  stored : ∀ {call row row'}, C.Later row row' → C.Stored call row → C.Stored call row'
  back : ∀ {b now D ws} {r : BRes b}, Requires b D → Does P b now D ws r → ¬ C.Makes b →
    ∀ {id row'}, C.find (store.applyAll D ws) id = some row' → ∃ row, C.find D id = some row
  commit : ∀ {call turn b now D ws} {r : BRes b}, (C.protocol call).allow turn (.txn b) →
    Does P b now D ws r → turn = .waiting ∧
      ((∃ row, (C.protocol call).next turn (.txn b) (.ok r : Except Exn (BRes b)) = .won row ∧
        C.find D (C.id row) = none ∧ C.Stored call row ∧
        ∀ id, C.find (store.applyAll D ws) id = if id = C.id row then some row else C.find D id) ∨
      (ws = [] ∧ ((C.protocol call).next turn (.txn b) (.ok r : Except Exn (BRes b)) = .waiting ∨
        ∃ row, (C.protocol call).next turn (.txn b) (.ok r : Except Exn (BRes b)) = .same row ∧
          C.Matches call row ∧ ∃ row', C.find D (C.id row) = some row' ∧ C.Later row row')))
  error : ∀ {call turn b} {e : Exn},
    (C.protocol call).next turn (.txn b) (.error e : Except Exn (BRes b)) = turn
  ext : ∀ {call turn e}, (C.protocol call).allow turn (.ext e) →
    ((∀ task n, ¬ Sends e task n) ∧ ∀ r, (C.protocol call).next turn (.ext e) r = turn) ∨
    ∃ row task, turn = .won row ∧ e = .delay task ∧
      (∀ id, C.ofTask id task = true → id = C.id row) ∧
      ∀ r : Bool, (C.protocol call).next (.won row) (.ext (.delay task)) r =
        if r then .sent row else .won row

/-- The process was started for the call. -/
def Started (s : State P) (i : ℕ) (call : C.Request) : Prop :=
  ∃ x st, s.procs[i]? = some ⟨x, st⟩ ∧ C.request? x = some call

/-- Who has made which row. -/
structure Makers (s : State P) (g : ℕ → Turn C.Row) : Prop where
  creator : ∀ id row', C.find s.db id = some row' →
    ∃ i call row, C.Started s i call ∧ C.Stored call row' ∧ Wins (g i) row ∧ C.id row = id
  winner : ∀ i row, Wins (g i) row → ∃ call, C.Started s i call ∧ C.Stored call row ∧
    ∃ row', C.find s.db (C.id row) = some row' ∧ C.Later row row'
  unique : ∀ i j row row', Wins (g i) row → Wins (g j) row' → C.id row = C.id row' → i = j
  same : ∀ i row, g i = .same row → ∃ call, C.Started s i call ∧ C.Matches call row ∧
    ∃ row', C.find s.db (C.id row) = some row' ∧ C.Later row row'

/-- Who has sent the task of which row. -/
structure Senders (w : World) (g : ℕ → Turn C.Row) : Prop where
  sender : ∀ id, ∀ i ∈ firstSenders (C.ofTask id) w, ∃ row, g i = .sent row ∧ C.id row = id
  once : ∀ id, (firstSenders (C.ofTask id) w).length ≤ 1

/-- What holds between transactions. -/
structure Creating (s : State P) (g : ℕ → Turn C.Row) : Prop extends
  Makers C s g, Senders C s.world g

variable {C} {s s' : State P} {g g' : ℕ → Turn C.Row}

/-! ### One step -/

theorem Started.set {i pid : ℕ} {call : C.Request} {x : Start P}
    {st st' : Status Write Lock Stmt Block Ext Exn Ans SRes BRes ERes} {db : Db} {w : World}
    (h : C.Started s i call) (hp : s.procs[pid]? = some ⟨x, st⟩) :
    C.Started { s with db := db, world := w, procs := s.procs.set pid ⟨x, st'⟩ } i call := by
  obtain ⟨y, st₁, hi, hy⟩ := h
  have hlt := (List.getElem?_eq_some_iff.mp hp).1
  by_cases hpid : i = pid
  · subst hpid
    obtain ⟨rfl, -⟩ := Machine.Proc.mk.inj (Option.some.inj (hp.symm.trans hi))
    exact ⟨x, st', by simp [hlt], hy⟩
  · exact ⟨y, st₁, by simpa [List.getElem?_set_ne (Ne.symm hpid)] using hi, hy⟩

theorem Started.eq {i : ℕ} {call : C.Request} (h : C.Started s i call) {x : Start P}
    {st : Status Write Lock Stmt Block Ext Exn Ans SRes BRes ERes}
    (hp : s.procs[i]? = some ⟨x, st⟩) :
    C.request? x = some call := by
  obtain ⟨y, st₁, hi, hy⟩ := h
  obtain ⟨rfl, -⟩ := Machine.Proc.mk.inj (Option.some.inj (hp.symm.trans hi))
  exact hy

theorem Started.erase {i : ℕ} {call : C.Request}
    (h : C.Started (Machine.erase (payflow P) s) i call) : C.Started s i call := by
  obtain ⟨x, st, hp, hx⟩ := h
  simp only [Machine.erase, List.getElem?_map, Option.map_eq_some_iff] at hp
  obtain ⟨⟨y, st'⟩, hp, he⟩ := hp
  obtain ⟨rfl, -⟩ := Machine.Proc.mk.inj he
  exact ⟨y, st', hp, hx⟩

theorem Makers.keep (hC : C.Lawful) (h : Makers C s g)
    (hstarted : ∀ i call, C.Started s i call → C.Started s' i call) (hle : Grown s.db s'.db)
    (hback : ∀ id row', C.find s'.db id = some row' → ∃ row, C.find s.db id = some row)
    (hwins : ∀ i row, Wins (g' i) row ↔ Wins (g i) row)
    (hsame : ∀ i row, g' i = .same row → g i = .same row ∨ ∃ call, C.Started s' i call ∧
      C.Matches call row ∧ ∃ row', C.find s'.db (C.id row) = some row' ∧ C.Later row row') :
    Makers C s' g' := by
  refine ⟨?_, ?_, ?_, ?_⟩
  · intro id row' hid'
    obtain ⟨row₁, hid⟩ := hback id row' hid'
    obtain ⟨i, call, row, hs, hstored, hw, hrow⟩ := h.creator id row₁ hid
    obtain ⟨row₂, hid₂, hlater⟩ := hC.later hle hid
    obtain rfl := Option.some.inj (hid₂.symm.trans hid')
    exact ⟨i, call, row, hstarted i call hs, hC.stored hlater hstored, (hwins i row).mpr hw, hrow⟩
  · intro i row hw
    obtain ⟨call, hs, hstored, row₁, hid, hlater⟩ := h.winner i row ((hwins i row).mp hw)
    obtain ⟨row', hid', hlater'⟩ := hC.later hle hid
    exact ⟨call, hstarted i call hs, hstored, row', hid', hC.trans hlater hlater'⟩
  · intro i j row row' hi hj
    exact h.unique i j row row' ((hwins i row).mp hi) ((hwins j row').mp hj)
  · intro i row hi
    rcases hsame i row hi with hi | hnew
    · obtain ⟨call, hs, hmatch, row₁, hid, hlater⟩ := h.same i row hi
      obtain ⟨row', hid', hlater'⟩ := hC.later hle hid
      exact ⟨call, hstarted i call hs, hmatch, row', hid', hC.trans hlater hlater'⟩
    · exact hnew

theorem Makers.create (hC : C.Lawful) (h : Makers C s g) {pid : ℕ} {call : C.Request} {x : Start P}
    (hx : C.request? x = some call)
    {st st' : Status Write Lock Stmt Block Ext Exn Ans SRes BRes ERes}
    (hp : s.procs[pid]? = some ⟨x, st⟩) (hg : g pid = .waiting) {row : C.Row}
    (hid : C.find s.db (C.id row) = none) (hstored : C.Stored call row) {db : Db}
    (hdb : ∀ id, C.find db id = if id = C.id row then some row else C.find s.db id) :
    Makers C { s with db := db, procs := s.procs.set pid ⟨x, st'⟩ }
      (Function.update g pid (.won row)) := by
  have hstarted : ∀ i call', C.Started s i call' →
      C.Started { s with db := db, procs := s.procs.set pid ⟨x, st'⟩ } i call' :=
    fun i call' hi => hi.set hp
  have hpid := hstarted pid call ⟨x, st, hp, hx⟩
  have hold : ∀ id row', C.find s.db id = some row' → C.find db id = some row' := by
    intro id row' hid'
    have hne : id ≠ C.id row := by
      rintro rfl
      simp [hid] at hid'
    rw [hdb, if_neg hne, hid']
  have hwins : ∀ i row', Wins (Function.update g pid (.won row) i) row' ↔
      (i = pid ∧ row' = row) ∨ (i ≠ pid ∧ Wins (g i) row') := by
    intro i row'
    by_cases hi : i = pid
    · subst hi
      simp [Wins, eq_comm]
    · simp [hi]
  have hnot : ∀ i row', Wins (g i) row' → C.id row' ≠ C.id row := by
    intro i row' hw hrow
    obtain ⟨-, -, -, row₁, hid₁, -⟩ := h.winner i _ hw
    simp [hrow, hid] at hid₁
  refine ⟨?_, ?_, ?_, ?_⟩
  · intro id row' hid'
    have hid' : C.find db id = some row' := hid'
    rw [hdb] at hid'
    split_ifs at hid' with hrow
    · obtain rfl := Option.some.inj hid'
      exact ⟨pid, call, row, hpid, hstored, (hwins pid row).mpr (Or.inl ⟨rfl, rfl⟩), hrow.symm⟩
    · obtain ⟨i, call', row₁, hs, hst, hw, hrow₁⟩ := h.creator id row' hid'
      have hi : i ≠ pid := by
        rintro rfl
        simp [Wins, hg] at hw
      exact ⟨i, call', row₁, hstarted i call' hs, hst, (hwins i row₁).mpr (Or.inr ⟨hi, hw⟩), hrow₁⟩
  · intro i row' hw
    rcases (hwins i row').mp hw with ⟨rfl, rfl⟩ | ⟨-, hw⟩
    · exact ⟨call, hpid, hstored, row', by rw [hdb, if_pos rfl], hC.refl row'⟩
    · obtain ⟨call', hs, hst, row₁, hid₁, hlater⟩ := h.winner i row' hw
      exact ⟨call', hstarted i call' hs, hst, row₁, hold _ row₁ hid₁, hlater⟩
  · intro i j row₁ row₂ hi hj hid₁₂
    rcases (hwins i row₁).mp hi with ⟨hip, rfl⟩ | ⟨-, hwi⟩
    · rcases (hwins j row₂).mp hj with ⟨hjp, -⟩ | ⟨-, hwj⟩
      · rw [hip, hjp]
      · exact absurd hid₁₂.symm (hnot j row₂ hwj)
    · rcases (hwins j row₂).mp hj with ⟨-, rfl⟩ | ⟨-, hwj⟩
      · exact absurd hid₁₂ (hnot i row₁ hwi)
      · exact h.unique i j row₁ row₂ hwi hwj hid₁₂
  · intro i row' hi
    have hne : i ≠ pid := by
      rintro rfl
      simp at hi
    rw [Function.update_of_ne hne] at hi
    obtain ⟨call', hs, hmatch, row₁, hid₁, hlater⟩ := h.same i row' hi
    exact ⟨call', hstarted i call' hs, hmatch, row₁, hold _ row₁ hid₁, hlater⟩

theorem Senders.keep {w w' : World} (h : Senders C w g)
    (hfirst : ∀ id, firstSenders (C.ofTask id) w' = firstSenders (C.ofTask id) w)
    (hsent : ∀ i row, g i = .sent row → g' i = .sent row) : Senders C w' g' := by
  constructor
  · intro id i hi
    rw [hfirst] at hi
    obtain ⟨row, hrow, hid⟩ := h.sender id i hi
    exact ⟨row, hsent i row hrow, hid⟩
  · intro id
    rw [hfirst]
    exact h.once id

theorem Senders.send {w : World} (h : Senders C w g) {pid : ℕ} {row : C.Row} {task : Task}
    (htask : ∀ id, C.ofTask id task = true → id = C.id row) (hg : g pid = .won row)
    (hunique : ∀ i row', g i = .sent row' → C.id row' = C.id row → i = pid) :
    Senders C ⟨w.messages ++ [⟨task, 0, pid, false⟩]⟩ (Function.update g pid (.sent row)) := by
  have hnone : firstSenders (C.ofTask (C.id row)) w = [] := by
    refine List.eq_nil_iff_forall_not_mem.mpr fun i hi => ?_
    obtain ⟨row', hsent, hid⟩ := h.sender _ i hi
    rw [hunique i row' hsent hid, hg] at hsent
    simp at hsent
  constructor
  · intro id i hi
    rw [firstSenders_append] at hi
    rcases List.mem_append.mp hi with hi | hi
    · obtain ⟨row', hsent, hid⟩ := h.sender id i hi
      have hne : i ≠ pid := by
        rintro rfl
        simp [hg] at hsent
      exact ⟨row', by rw [Function.update_of_ne hne, hsent], hid⟩
    · split_ifs at hi with hof
      · rw [List.mem_singleton.mp hi, Function.update_self]
        exact ⟨row, rfl, (htask id hof.2).symm⟩
      · simp at hi
  · intro id
    rw [firstSenders_append, List.length_append]
    by_cases hof : C.ofTask id task = true
    · obtain rfl := htask id hof
      rw [hnone]
      split_ifs <;> simp
    · have hone := h.once id
      rw [if_neg fun h => hof h.2]
      exact hone

theorem wins_update {pid : ℕ} {turn : Turn C.Row} (hg : ∀ row, ¬ Wins (g pid) row)
    (ht : ∀ row, ¬ Wins turn row) (i : ℕ) (row : C.Row) :
    Wins (Function.update g pid turn i) row ↔ Wins (g i) row := by
  by_cases hi : i = pid
  · subst hi
    rw [Function.update_self]
    exact ⟨fun hw => absurd hw (ht row), fun hw => absurd hw (hg row)⟩
  · rw [Function.update_of_ne hi]

theorem Creating.stay (hC : C.Lawful) (h : Creating C s g)
    (hstarted : ∀ i call, C.Started s i call → C.Started s' i call) (hle : Grown s.db s'.db)
    (hback : ∀ id row', C.find s'.db id = some row' → ∃ row, C.find s.db id = some row)
    (hfirst : ∀ id, firstSenders (C.ofTask id) s'.world = firstSenders (C.ofTask id) s.world) :
    Creating C s' g :=
  ⟨h.toMakers.keep hC hstarted hle hback (fun _ _ => Iff.rfl) fun _ _ hi => Or.inl hi,
    h.toSenders.keep hfirst fun _ _ hi => hi⟩

/-- **A commit** of a call. -/
theorem creating_commit (hC : C.Lawful) (h : Creating C s g) {pid now : ℕ} {call : C.Request}
    {x : Start P} (hx : C.request? x = some call) {b : Block} {ws : List Write} {r : BRes b}
    {st st' : Status Write Lock Stmt Block Ext Exn Ans SRes BRes ERes}
    (hp : s.procs[pid]? = some ⟨x, st⟩) (hallow : (C.protocol call).allow (g pid) (.txn b))
    (hdoes : Does P b now s.db ws r) :
    Creating C { s with db := store.applyAll s.db ws, procs := s.procs.set pid ⟨x, st'⟩ }
      (Function.update g pid
        ((C.protocol call).next (g pid) (.txn b) (.ok r : Except Exn (BRes b)))) := by
  obtain ⟨hwaiting, hmade | ⟨rfl, hgot⟩⟩ := hC.commit hallow hdoes
  · obtain ⟨row, hnext, hid, hstored, hdb⟩ := hmade
    rw [hnext]
    refine ⟨h.toMakers.create hC hx hp hwaiting hid hstored hdb,
      h.toSenders.keep (fun _ => rfl) ?_⟩
    intro i row' hi
    have hpid : i ≠ pid := by
      rintro rfl
      simp [hwaiting] at hi
    rw [Function.update_of_ne hpid, hi]
  · generalize (C.protocol call).next (g pid) (.txn b) (.ok r : Except Exn (BRes b)) = turn at hgot
    have hturn : ∀ row, ¬ Wins turn row := by
      rcases hgot with rfl | ⟨row, rfl, -⟩ <;> simp [Wins]
    have hwins : ∀ i row, Wins (Function.update g pid turn i) row ↔ Wins (g i) row :=
      wins_update (by simp [Wins, hwaiting]) hturn
    refine ⟨h.toMakers.keep hC (fun i call' hi =>
      hi.set hp) (.refl _) (fun id row' hid => ⟨row', hid⟩)
      hwins ?_, h.toSenders.keep (fun _ => rfl) ?_⟩
    · intro i row hi
      by_cases hpid : i = pid
      · subst hpid
        rw [Function.update_self] at hi
        rcases hgot with rfl | ⟨row₁, rfl, hmatch, hrow⟩
        · simp at hi
        · obtain rfl := Turn.same.inj hi
          have hpid : C.Started s i call := ⟨x, st, hp, hx⟩
          exact Or.inr ⟨call, hpid.set hp, hmatch, hrow⟩
      · rw [Function.update_of_ne hpid] at hi
        exact Or.inl hi
    · intro i row hi
      have hpid : i ≠ pid := by
        rintro rfl
        simp [hwaiting] at hi
      rw [Function.update_of_ne hpid, hi]

/-- **An external action** of a call. -/
theorem creating_ext (hC : C.Lawful) (h : Creating C s g) {pid : ℕ} {call : C.Request} {x : Start P}
    {pick : Pick} {e : Ext} {r : ERes e} {w : World}
    {st st' : Status Write Lock Stmt Block Ext Exn Ans SRes BRes ERes}
    (hp : s.procs[pid]? = some ⟨x, st⟩) (hallow : (C.protocol call).allow (g pid) (.ext e))
    (hw : ext pid pick s.world e = some (r, w)) :
    Creating C { s with world := w, procs := s.procs.set pid ⟨x, st'⟩ }
      (Function.update g pid ((C.protocol call).next (g pid) (.ext e) r)) := by
  have hstay : w = s.world → ∀ turn, turn = g pid →
      Creating C { s with world := w, procs := s.procs.set pid ⟨x, st'⟩ }
        (Function.update g pid turn) := by
    rintro rfl turn rfl
    rw [Function.update_eq_self]
    exact h.stay hC (fun i call' hi => hi.set hp) (.refl _) (fun _ row' hid => ⟨row', hid⟩)
      fun _ => rfl
  rcases hC.ext hallow with ⟨hsends, hnext⟩ | ⟨row, task, hg, rfl, htask, hnext⟩
  · refine hstay ?_ _ (hnext r)
    rcases ext_cases hw with hw | ⟨task, n, hs, -⟩
    · exact hw
    · exact absurd hs (hsends task n)
  · have hw := ext_delay hw
    rw [hg, hnext r]
    cases r with
    | false => exact hstay hw _ hg.symm
    | true =>
      obtain rfl := hw
      have hunique : ∀ i row', g i = .sent row' → C.id row' = C.id row → i = pid :=
        fun i row' hi hid => h.unique i pid row' row (Or.inr hi) (Or.inl hg) hid
      have hwins : ∀ i row', Wins (Function.update g pid (.sent row) i) row' ↔ Wins (g i) row' := by
        intro i row'
        by_cases hi : i = pid
        · subst hi
          simp [Wins, hg]
        · rw [Function.update_of_ne hi]
      refine ⟨h.toMakers.keep hC (fun i call' hi => hi.set hp) (.refl _)
        (fun _ row' hid => ⟨row', hid⟩) hwins fun i row' hi => Or.inl ?_,
        h.toSenders.send htask hg hunique⟩
      have hi' : i ≠ pid := by
        rintro rfl
        rw [Function.update_self] at hi
        have hi : Turn.sent row = .same row' := hi
        simp at hi
      rwa [Function.update_of_ne hi'] at hi

/-- **A step between transactions.** -/
theorem creating_step (hC : C.Lawful) {ev : Event Block Ext (Start P)} (h : Creating C s g)
    (hs : Machine.Guided C.discipline rely (contract P) s g ev s' g') : Creating C s' g' := by
  have hdb : ∀ id row', C.find s.db id = some row' → ∃ row, C.find s.db id = some row :=
    fun _ row' hid => ⟨row', hid⟩
  cases hs with
  | @start x p hp =>
    have hnot : ∀ row, ¬ Wins (g s.procs.length) row := by
      intro row hw
      obtain ⟨call, ⟨y, st, hst, -⟩, -⟩ := h.winner _ row hw
      simp at hst
    have hstarted : ∀ i call, C.Started s i call →
        C.Started { s with procs := s.procs ++ [⟨x, .run p⟩] } i call := by
      rintro i call ⟨y, st, hi, hy⟩
      exact ⟨y, st, by rw [List.getElem?_append_left (List.getElem?_eq_some_iff.mp hi).1, hi], hy⟩
    have hwins : ∀ i row, Wins (Function.update g s.procs.length .waiting i) row ↔ Wins (g i) row :=
      wins_update hnot (by simp [Wins])
    refine ⟨h.toMakers.keep hC hstarted (.refl _) hdb hwins ?_, h.toSenders.keep (fun _ => rfl) ?_⟩
    · intro i row hi
      have hne : i ≠ s.procs.length := by
        rintro rfl
        rw [Function.update_self] at hi
        exact absurd hi (by simp [discipline])
      rw [Function.update_of_ne hne] at hi
      exact Or.inl hi
    · intro i row hi
      have hne : i ≠ s.procs.length := by
        rintro rfl
        exact hnot row (Or.inr hi)
      rw [Function.update_of_ne hne, hi]
  | @commit pid x b k now ws i r hp hi hallow hnow hinv hpre hpost =>
    obtain rfl := Option.some.inj hi
    have hle := (keep_of_does hinv hpre hpost).2.toGrown
    show Creating C _ (Function.update g pid ((C.protocolOf (C.request? x)).next _ _ _))
    have hallow : (C.protocolOf (C.request? x)).allow _ _ := hallow
    generalize hx : C.request? x = call at hallow
    cases call with
    | some call => exact creating_commit hC h hx hp hallow hpost
    | none =>
      show Creating C _ (Function.update g pid (g pid))
      rw [Function.update_eq_self]
      exact h.stay hC (fun i call hi => hi.set hp) hle
        (fun id row' hid => hC.back hpre hpost (hallow.1 b rfl) hid) fun _ => rfl
  | @rollback pid x b k D₀ e i hp hi hallow hle hinv hpre hfail =>
    obtain rfl := Option.some.inj hi
    have hnext : ∀ call : Option C.Request, (C.protocolOf call).next (g pid) (.txn b)
        (.error e : Except Exn (BRes b)) = g pid := by
      intro call
      cases call with
      | some call => exact hC.error
      | none => rfl
    show Creating C _ (Function.update g pid ((C.protocolOf (C.request? x)).next (g pid) (.txn b)
      (.error e : Except Exn (BRes b))))
    rw [hnext, Function.update_eq_self]
    exact h.stay hC (fun i call hi => hi.set hp) (.refl _) hdb fun _ => rfl
  | @ext pid pick x e k w i r hp hi hallow hw =>
    obtain rfl := Option.some.inj hi
    show Creating C _ (Function.update g pid ((C.protocolOf (C.request? x)).next _ _ _))
    have hallow : (C.protocolOf (C.request? x)).allow _ _ := hallow
    generalize C.request? x = call at hallow
    cases call with
    | some call => exact creating_ext hC h hp hallow hw
    | none =>
      show Creating C _ (Function.update g pid (g pid))
      rw [Function.update_eq_self]
      refine h.stay hC (fun i call hi => hi.set hp) (.refl _) hdb fun id => ?_
      rcases ext_cases hw with rfl | ⟨task, n, hsend, rfl⟩
      · rfl
      · show firstSenders _ ⟨_⟩ = _
        rw [firstSenders_append, if_neg, List.append_nil]
        rintro ⟨rfl, htask⟩
        simp [hallow.2 e task rfl hsend id] at htask
  | @finishOk pid x a i hp hi hret =>
    exact h.stay hC (fun i call hi => hi.set hp) (.refl _) hdb fun _ =>
      firstSenders_finish x (.ok a)
  | @finishError pid x e i hp hi hraise =>
    exact h.stay hC (fun i call hi => hi.set hp) (.refl _) hdb
      fun _ => firstSenders_finish x (.error e)
  | kill hp hlive => exact h.stay hC (fun i call hi => hi.set hp) (.refl _) hdb fun _ => rfl
  | tick => exact h.stay hC (fun i call hi => hi) (.refl _) hdb fun _ => rfl

/-- **Every row has one maker, who alone sends its task.** -/
theorem creating_of_reachable (hC : C.Lawful) (hstart : Machine.Lawful C.discipline)
    (hnone : ∀ id, C.find Db.empty id = none) (h : Reachable P s) :
    ∃ g, Machine.Followed C.discipline (Machine.erase (payflow P) s) g ∧
      Creating C (Machine.erase (payflow P) s) g := by
  have hinit : Creating C (init P) fun _ => .waiting := by
    refine ⟨⟨?_, ?_, ?_, ?_⟩, ?_, ?_⟩
    · simp [init, hnone]
    · simp [Wins]
    · simp [Wins]
    · simp
    · simp [init, firstSenders]
    · simp [init, firstSenders]
  exact Machine.ReachableBy.guided (fulfils P) hstart (C := fun _ _ => True) (J := Creating C)
    (good_init P) rfl hinit (fun hg _ _ hs => creating_step hC hg hs) (h.imp fun _ _ _ _ _ => trivial)

end Creation

end Payflow.Spec
