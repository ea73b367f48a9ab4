import Mathlib.Data.List.Basic
import Mathlib.Logic.Function.Basic

/-! # Locks by tokens

Many contexts share a store of keys. A context draws a token of its own and sets a key to it where
the key is absent; it then holds the key, until it releases it, which deletes the key where it still
has the token. A key may expire at any time. The answer to a command may be lost: the context goes
on as if it held the key, or had released it, and the command is executed late, or never.

`Ok` says whose tokens are about, `Exclusive` that what is held is stored. The first is kept by
every move, the second by those that lose no answer and no key that is held. -/

namespace Payflow.Lib.TokenLock

/-- The value of a key, and when it expires. -/
structure Entry (Token : Type) where
  token : Token
  expiresAt : ℕ

/-- What a context asks of the store. -/
inductive Command (Key Token : Type) where
  | set (key : Key) (token : Token)
  | release (key : Key) (token : Token)
  deriving DecidableEq

/-- How far a context is. -/
inductive Context (Key Token : Type) where
  | outside
  | drawn (token : Token)
  | holding (key : Key) (token : Token)
  | left (token : Option Token)
  deriving DecidableEq

/-- The keys, the contexts by number, and the commands that are still on their way, with the
contexts that do not wait for them any more. -/
structure State (Key Token : Type) where
  keys : Key → Option (Entry Token)
  contexts : ℕ → Context Key Token
  late : List (ℕ × Command Key Token)

/-- What a move does to the store. -/
inductive Effect (Key Token : Type) where
  | none
  | executed (c : ℕ) (command : Command Key Token)
  | failed
  | expired (key : Key)

variable {Key Token : Type}

/-- The token a command carries. -/
def Command.token : Command Key Token → Token
  | set _ t | release _ t => t

namespace Context

/-- The token of a context. -/
def token : Context Key Token → Option Token
  | outside => none
  | drawn t | holding _ t => some t
  | left t => t

/-- What the context may ask. -/
def Allows : Context Key Token → Command Key Token → Prop
  | drawn t, .set _ t' => t' = t
  | holding key t, .release key' t' => key' = key ∧ t' = t
  | _, _ => False

/-- The context after its command was answered; without an answer it counts as the holder. -/
def after : Context Key Token → Command Key Token → Option Bool → Context Key Token
  | drawn t, .set key _, reply => if reply.getD true then holding key t else left (some t)
  | holding _ t, .release _ _, _ => left (some t)
  | c, _, _ => c

theorem after_set {t t' : Token} {key : Key} {reply : Option Bool} (h : reply.getD true = true) :
    (drawn t : Context Key Token).after (.set key t') reply = holding key t :=
  if_pos h

@[simp] theorem token_after (c : Context Key Token) (command : Command Key Token)
    (reply : Option Bool) : (c.after command reply).token = c.token := by
  cases c with
  | drawn t =>
    cases command with
    | set key t' => by_cases hreply : reply.getD true = true <;> simp [after, hreply, token]
    | release key t' => rfl
  | holding key t => cases command <;> rfl
  | _ => rfl

theorem Allows.token {c : Context Key Token} {command : Command Key Token}
    (h : c.Allows command) : c.token = some command.token := by
  cases c with
  | drawn t =>
    cases command with
    | set key t' => exact congrArg some (Eq.symm h)
    | release key t' => exact h.elim
  | holding key t =>
    cases command with
    | set key' t' => exact h.elim
    | release key' t' => exact congrArg some h.2.symm
  | _ => exact h.elim

end Context

variable [DecidableEq Key]

/-- What the store does with a command. -/
inductive Executed (keys : Key → Option (Entry Token)) :
    Command Key Token → Bool → (Key → Option (Entry Token)) → Prop
  | set {key t e} : keys key = none → e.token = t →
      Executed keys (.set key t) true (Function.update keys key (some e))
  | refused {key t} : keys key ≠ none → Executed keys (.set key t) false keys
  | released {key t e} : keys key = some e → e.token = t →
      Executed keys (.release key t) true (Function.update keys key none)
  | kept {key t} : (∀ e, keys key = some e → e.token ≠ t) →
    Executed keys (.release key t) false keys

/-- One move: a context draws a new token; its command is executed and answered; the
answer is lost; the context is killed, with a command on its way or not; a command is
executed late; a key expires. -/
inductive Move (s : State Key Token) : Effect Key Token → State Key Token → Prop
  | draw {c t} : s.contexts c = .outside → (∀ d, (s.contexts d).token ≠ some t) →
      Move s .none { s with contexts := Function.update s.contexts c (.drawn t) }
  | answer {c command b keys} : (s.contexts c).Allows command → Executed s.keys command b keys →
      Move s (.executed c command)
        { s with
          keys := keys
          contexts := Function.update s.contexts c ((s.contexts c).after command (some b)) }
  | error {c command} : (s.contexts c).Allows command →
      Move s .failed
        { s with
          contexts := Function.update s.contexts c ((s.contexts c).after command none)
          late := s.late ++ [(c, command)] }
  | leave {c} {commands : List (Command Key Token)} : (∀ command ∈ commands,
    (s.contexts c).Allows command) →
      Move s .none
        { s with
          contexts := Function.update s.contexts c (.left (s.contexts c).token)
          late := s.late ++ commands.map fun command => (c, command) }
  | late {i c command b keys} : s.late[i]? = some (c, command) → Executed s.keys command b keys →
      Move s (.executed c command) { s with keys := keys, late := s.late.eraseIdx i }
  | expire {key} : Move s (.expired key) { s with keys := Function.update s.keys key none }

/-- The tokens of the store are those of contexts, every command on its way carries the token of its
context, and no two contexts have one token. -/
structure Ok (s : State Key Token) : Prop where
  stored : ∀ key e, s.keys key = some e → ∃ c, (s.contexts c).token = some e.token
  late : ∀ x ∈ s.late, (s.contexts x.1).token = some x.2.token
  distinct : ∀ c d t, (s.contexts c).token = some t → (s.contexts d).token = some t → c = d

/-- What is held is stored, and no living context has left a command behind. -/
structure Exclusive (s : State Key Token) : Prop where
  held : ∀ c key t, s.contexts c = .holding key t → ∃ e, s.keys key = some e ∧ e.token = t
  gone : ∀ x ∈ s.late, ∃ t, s.contexts x.1 = .left t

section

variable {s s' : State Key Token} {eff : Effect Key Token}

/-- What is stored was there before, or is what the command has set. -/
theorem Executed.stored {keys keys' : Key → Option (Entry Token)} {command : Command Key Token}
    {b : Bool} (h : Executed keys command b keys') {key : Key} {e : Entry Token}
    (he : keys' key = some e) :
    keys key = some e ∨ (command = .set key e.token ∧ keys key = none) := by
  cases h with
  | @set key' t e' hnone htoken =>
    by_cases hkey : key = key'
    · subst hkey
      rw [Function.update_self] at he
      obtain rfl := Option.some.inj he
      exact Or.inr ⟨by rw [htoken], hnone⟩
    · rw [Function.update_of_ne hkey] at he
      exact Or.inl he
  | @released key' t e' hsome htoken =>
    by_cases hkey : key = key'
    · subst hkey
      simp at he
    · rw [Function.update_of_ne hkey] at he
      exact Or.inl he
  | refused hsome => exact Or.inl he
  | kept hother => exact Or.inl he

/-- **What is stored stays** but for a release with its own token. -/
theorem Executed.stays {keys keys' : Key → Option (Entry Token)} {command : Command Key Token}
    {b : Bool} (h : Executed keys command b keys') {key : Key} {e : Entry Token}
    (he : keys key = some e) : keys' key = some e ∨ command = .release key e.token := by
  cases h with
  | @set key' t e' hnone htoken =>
    have hkey : key ≠ key' := by
      rintro rfl
      simp [he] at hnone
    exact Or.inl (by rw [Function.update_of_ne hkey, he])
  | @released key' t e' hsome htoken =>
    by_cases hkey : key = key'
    · subst hkey
      obtain rfl := Option.some.inj (he.symm.trans hsome)
      exact Or.inr (by rw [htoken])
    · exact Or.inl (by rw [Function.update_of_ne hkey, he])
  | refused hsome => exact Or.inl he
  | kept hother => exact Or.inl he

theorem Move.token (h : Move s eff s') {c : ℕ} {t : Token} (ht : (s.contexts c).token = some t) :
    (s'.contexts c).token = some t := by
  have hset : ∀ {d : ℕ} {x : Context Key Token}, x.token = (s.contexts d).token →
      (Function.update s.contexts d x c).token = some t := by
    intro d x hx
    by_cases hd : c = d
    · subst hd
      rw [Function.update_self, hx, ht]
    · rw [Function.update_of_ne hd, ht]
  cases h with
  | @draw d t' hout hnew =>
    have hd : c ≠ d := by
      rintro rfl
      simp [hout, Context.token] at ht
    show (Function.update s.contexts d _ c).token = _
    rw [Function.update_of_ne hd, ht]
  | answer hallows hx => exact hset (Context.token_after _ _ _)
  | error hallows => exact hset (Context.token_after _ _ _)
  | leave hallows => exact hset rfl
  | late hi hx => exact ht
  | expire => exact ht

theorem Move.token_before (h : Move s eff s') :
    (∀ c t, (s'.contexts c).token = some t → (s.contexts c).token = some t) ∨
    ∃ c₀ t₀, (∀ d, (s.contexts d).token ≠ some t₀) ∧
    s'.contexts = Function.update s.contexts c₀ (.drawn t₀) := by
  have hset : ∀ {d : ℕ} {x : Context Key Token}, x.token = (s.contexts d).token →
      ∀ c t, (Function.update s.contexts d x c).token = some t → (s.contexts c).token = some t := by
    intro d x hx c t ht
    by_cases hd : c = d
    · subst hd
      rwa [Function.update_self, hx] at ht
    · rwa [Function.update_of_ne hd] at ht
  cases h with
  | @draw d t' hout hnew => exact Or.inr ⟨d, t', hnew, rfl⟩
  | answer hallows hx => exact Or.inl (hset (Context.token_after _ _ _))
  | error hallows => exact Or.inl (hset (Context.token_after _ _ _))
  | leave hallows => exact Or.inl (hset rfl)
  | late hi hx => exact Or.inl fun _ _ ht => ht
  | expire => exact Or.inl fun _ _ ht => ht

theorem Ok.executed (h : Ok s) {c : ℕ} {command : Command Key Token}
    (hm : Move s (.executed c command) s') : (s.contexts c).token = some command.token := by
  cases hm with
  | answer hallows hx => exact hallows.token
  | late hi hx => exact h.late _ (List.mem_of_getElem? hi)

theorem Ok.move (h : Ok s) (hm : Move s eff s') : Ok s' := by
  refine ⟨fun key e he => ?_, fun x hx => ?_, fun c d t hc hd => ?_⟩
  · have hold : s.keys key = some e → ∃ c, (s'.contexts c).token = some e.token := by
      intro he
      obtain ⟨c, hc⟩ := h.stored key e he
      exact ⟨c, hm.token hc⟩
    have hnew : ∀ {c command b}, eff = .executed c command → Executed s.keys command b s'.keys →
        ∃ c, (s'.contexts c).token = some e.token := by
      rintro c command b rfl hx
      rcases hx.stored he with he | ⟨rfl, -⟩
      · exact hold he
      · exact ⟨c, hm.token (h.executed hm)⟩
    cases hm with
    | answer hallows hx => exact hnew rfl hx
    | late hi hx => exact hnew rfl hx
    | @expire key' =>
      by_cases hkey : key = key'
      · subst hkey
        simp at he
      · change Function.update s.keys key' none key = some e at he
        rw [Function.update_of_ne hkey] at he
        exact hold he
    | _ => exact hold he
  · have hold : x ∈ s.late → (s'.contexts x.1).token = some x.2.token :=
      fun hx => hm.token (h.late x hx)
    have hnew : ∀ {c command}, x = (c, command) → (s.contexts c).Allows command →
        (s'.contexts x.1).token = some x.2.token := by
      rintro c command rfl hallows
      exact hm.token hallows.token
    cases hm with
    | error hallows =>
      rcases List.mem_append.mp hx with hx | hx
      · exact hold hx
      · exact hnew (List.mem_singleton.mp hx) hallows
    | leave hallows =>
      rcases List.mem_append.mp hx with hx | hx
      · exact hold hx
      · obtain ⟨command, hcommand, rfl⟩ := List.mem_map.mp hx
        exact hnew rfl (hallows command hcommand)
    | late hi hx' => exact hold (List.mem_of_mem_eraseIdx hx)
    | _ => exact hold hx
  · rcases hm.token_before with hbefore | ⟨c₀, t₀, hnew, hcontexts⟩
    · exact h.distinct c d t (hbefore c t hc) (hbefore d t hd)
    · have hother : ∀ {c}, c ≠ c₀ → (s'.contexts c).token = some t → t ≠ t₀ ∧
          (s.contexts c).token = some t := by
        intro c hc₀ hc
        rw [hcontexts, Function.update_of_ne hc₀] at hc
        exact ⟨fun ht => hnew c (ht ▸ hc), hc⟩
      have hself : (s'.contexts c₀).token = some t₀ := by
        rw [hcontexts, Function.update_self]
        rfl
      by_cases hc₀ : c = c₀
      · subst hc₀
        obtain rfl := Option.some.inj (hc.symm.trans hself)
        by_contra hcd
        exact (hother (Ne.symm hcd) hd).1 rfl
      · by_cases hd₀ : d = c₀
        · subst hd₀
          obtain rfl := Option.some.inj (hd.symm.trans hself)
          exact absurd rfl (hother hc₀ hc).1
        · exact h.distinct c d t (hother hc₀ hc).2 (hother hd₀ hd).2

/-- **A key that is stored** is left alone by every move but its expiry and the release by the
context whose token it holds. -/
theorem Ok.stays (h : Ok s) (hm : Move s eff s') {key : Key} {e : Entry Token}
    (he : s.keys key = some e) :
    s'.keys key = some e ∨ eff = .expired key ∨
      ∃ c, eff = .executed c (.release key e.token) ∧ (s.contexts c).token = some e.token := by
  have hstays : ∀ {c command b}, eff = .executed c command → Executed s.keys command b s'.keys →
      s'.keys key = some e ∨ eff = .expired key ∨
        ∃ c, eff = .executed c (.release key e.token) ∧ (s.contexts c).token = some e.token := by
    rintro c command b rfl hx
    rcases hx.stays he with he' | rfl
    · exact Or.inl he'
    · exact Or.inr (Or.inr ⟨c, rfl, h.executed hm⟩)
  cases hm with
  | answer hallows hx => exact hstays rfl hx
  | late hi hx => exact hstays rfl hx
  | @expire key' =>
    by_cases hkey : key = key'
    · exact Or.inr (Or.inl (by rw [hkey]))
    · exact Or.inl (by rw [← he]; exact Function.update_of_ne hkey _ _)
  | _ => exact Or.inl he

/-- **A release that changes a key** finds the token of its own context there. -/
theorem Ok.release (h : Ok s) {c : ℕ} {key : Key} {t : Token}
    (hm : Move s (.executed c (.release key t)) s') {key' : Key}
    (hne : s'.keys key' ≠ s.keys key') :
    key' = key ∧ (s.contexts c).token = some t ∧ ∃ e, s.keys key = some e ∧ e.token = t := by
  have hx : ∃ b, Executed s.keys (.release key t) b s'.keys := by
    cases hm with
    | answer hallows hx => exact ⟨_, hx⟩
    | late hi hx => exact ⟨_, hx⟩
  have htoken : (s.contexts c).token = some t := h.executed hm
  obtain ⟨b, hx⟩ := hx
  generalize s'.keys = keys' at hx hne
  cases hx with
  | @released _ _ e hsome htoken' =>
    refine ⟨?_, htoken, e, hsome, htoken'⟩
    by_contra hkey
    exact hne (Function.update_of_ne hkey _ _)
  | kept hother => exact absurd rfl hne

theorem Executed.holding {keys keys' : Key → Option (Entry Token)} {x : Context Key Token}
    {command : Command Key Token} {b : Bool} (hallows : x.Allows command)
    (hx : Executed keys command b keys') {key : Key} {t : Token}
    (h : x.after command (some b) = .holding key t) : ∃ e, keys' key = some e ∧ e.token = t := by
  cases x with
  | drawn t₀ =>
    cases hx with
    | @set key' t' e hnone htoken =>
      obtain ⟨rfl, rfl⟩ := Context.holding.inj h
      obtain rfl : t' = t₀ := hallows
      exact ⟨e, Function.update_self _ _ _, htoken⟩
    | refused hsome => cases h
    | _ => exact hallows.elim
  | holding key' t' =>
    cases command with
    | set key'' t'' => exact hallows.elim
    | release key'' t'' => cases h
  | _ => exact hallows.elim

theorem Exclusive.move (hok : Ok s) (h : Exclusive s) (hm : Move s eff s') (hfailed : eff ≠ .failed)
    (hexpired : ∀ key, eff = .expired key → ∀ c e,
      s.keys key = some e → s.contexts c ≠ .holding key e.token) : Exclusive s' := by
  -- what a context holds stays if nobody else has its token
  have hkeep : ∀ {c key t}, s.contexts c = .holding key t →
      (∀ command, eff ≠ .executed c command) → ∃ e, s'.keys key = some e ∧ e.token = t := by
    intro c key t hc hother
    obtain ⟨e, he, rfl⟩ := h.held c key t hc
    have htoken : (s.contexts c).token = some e.token := by
      rw [hc]
      rfl
    rcases hok.stays hm he with he' | heff | ⟨d, heff, hd⟩
    · exact ⟨e, he', rfl⟩
    · exact absurd hc (hexpired key heff c e he)
    · rw [hok.distinct d c _ hd htoken] at heff
      exact absurd heff (hother _)
  constructor
  · intro c key t hc
    cases hm with
    | @draw d t' hout hnew =>
      change Function.update s.contexts d _ c = _ at hc
      by_cases hd : c = d
      · subst hd
        rw [Function.update_self] at hc
        cases hc
      · rw [Function.update_of_ne hd] at hc
        exact hkeep hc fun _ => nofun
    | @answer d command b keys hallows hx =>
      change Function.update s.contexts d _ c = _ at hc
      by_cases hd : c = d
      · subst hd
        rw [Function.update_self] at hc
        exact hx.holding hallows hc
      · rw [Function.update_of_ne hd] at hc
        exact hkeep hc fun _ he => hd (Effect.executed.inj he).1.symm
    | error hallows => exact absurd rfl hfailed
    | @leave d commands hallows =>
      change Function.update s.contexts d _ c = _ at hc
      by_cases hd : c = d
      · subst hd
        rw [Function.update_self] at hc
        cases hc
      · rw [Function.update_of_ne hd] at hc
        exact hkeep hc fun _ => nofun
    | @late i d command b keys hi hx =>
      refine hkeep hc fun command' he => ?_
      -- the context of a late command has left
      obtain ⟨t', hleft⟩ := h.gone _ (List.mem_of_getElem? hi)
      rw [(Effect.executed.inj he).1] at hleft
      have hc : s.contexts c = .holding key t := hc
      rw [hleft] at hc
      cases hc
    | expire => exact hkeep hc fun _ => nofun
  · have hleft : ∀ {d t}, s.contexts d = .left t → ∃ t', s'.contexts d = .left t' := by
      intro d t hd
      have hother : ∀ {c x}, (s.contexts c = .left t → False) →
          Function.update s.contexts c x d = .left t := by
        intro c x hc
        rw [Function.update_of_ne, hd]
        rintro rfl
        exact hc hd
      cases hm with
      | draw hout hnew => exact ⟨t, hother (by simp [hout])⟩
      | answer hallows hx =>
        exact ⟨t, hother fun hc => by simp [hc, Context.Allows] at hallows⟩
      | error hallows => exact absurd rfl hfailed
      | @leave c commands hallows =>
        by_cases hc : d = c
        · subst hc
          exact ⟨_, Function.update_self _ _ _⟩
        · exact ⟨t, (Function.update_of_ne hc _ _).trans hd⟩
      | late hi hx => exact ⟨t, hd⟩
      | expire => exact ⟨t, hd⟩
    intro x hx
    have hold : x ∈ s.late → ∃ t, s'.contexts x.1 = .left t := by
      intro hx
      obtain ⟨t, ht⟩ := h.gone x hx
      exact hleft ht
    cases hm with
    | error hallows => exact absurd rfl hfailed
    | leave hallows =>
      rcases List.mem_append.mp hx with hx | hx
      · exact hold hx
      · obtain ⟨command, -, rfl⟩ := List.mem_map.mp hx
        exact ⟨_, Function.update_self _ _ _⟩
    | late hi hx' => exact hold (List.mem_of_mem_eraseIdx hx)
    | _ => exact hold hx

omit [DecidableEq Key] in
/-- **At most one context** holds a key. -/
theorem Exclusive.unique (h : Exclusive s) (hok : Ok s) {c d : ℕ} {key : Key} {t t' : Token}
    (hc : s.contexts c = .holding key t) (hd : s.contexts d = .holding key t') : c = d := by
  obtain ⟨e, he, rfl⟩ := h.held c key t hc
  obtain ⟨e', he', rfl⟩ := h.held d key t' hd
  obtain rfl := Option.some.inj (he.symm.trans he')
  exact hok.distinct c d e.token (by rw [hc]; rfl) (by rw [hd]; rfl)

end

end Payflow.Lib.TokenLock
