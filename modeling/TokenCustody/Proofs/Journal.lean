import TokenCustody.Proofs.Custody
import TokenCustody.Proofs.SingleUse

/-!
# The journal tells the books

Whoever sees nothing of a run but its events, and of these only the kind and a few attributes as
decimal text, can keep the books of the bridge himself. `Event.entry?` reads what an event says
about the books, and a `Tally` adds the entries up, in exact integers. After every run from the
empty store the tally of all events is what the store holds (`Call.journal_faithful`), and each call
has added the one event that its command stands for, or none.

The event of a posting says what the posting books (`Posting.records_movement`), so that a tally
which tells the books in front of a call tells them behind it (`Call.exists_replay_turn`); the rest
is induction on the calls, from any store and any tally that tells its books.
-/

namespace TokenCustody

/-! ### Reading an event -/

/-- What an event says about the books. -/
structure Entry where
  token : String
  /-- The change of what is held. -/
  held : ℤ
  /-- The change of what is reserved. -/
  reserved : ℤ
  /-- The nonce that has been consumed, if there is one. -/
  nonce? : Option UInt64
  deriving DecidableEq

namespace Event

/-- The number in an attribute. -/
def nat? (e : Event) (name : String) : Option ℕ :=
  (e.attributes.lookup name).bind Decimal.read?

/-- The amount in an attribute. -/
def amount? (e : Event) (name : String) : Option Amount :=
  (e.nat? name).bind Amount.ofNat?

/-- The nonce in an attribute. -/
def nonce? (e : Event) : Option UInt64 :=
  (e.nat? "nonce").bind fun n => if n < UInt64.size then some (.ofNat n) else none

/-- What an event says about the books, by its kind and its attributes. -/
def entry? (e : Event) : Option Entry :=
  match e.kind with
  | "bridge_funds_in" => do
    return {
      token := ← e.attributes.lookup "token"
      held := (← e.amount? "amount").val
      reserved := (← e.amount? "total_commission").val
      nonce? := some (← e.nonce?) }
  | "bridge_funds_out" => do
    return {
      token := ← e.attributes.lookup "token"
      held := -(← e.amount? "amount").val
      reserved := 0
      nonce? := none }
  | "transfer_out" => do
    return {
      token := ← e.attributes.lookup "token"
      held := -(← e.amount? "amount").val
      reserved := 0
      nonce? := some (← e.nonce?) }
  | "withdraw_commission" => do
    return {
      token := ← e.attributes.lookup "token"
      held := -(← e.amount? "amount").val
      reserved := -(← e.amount? "amount").val
      nonce? := none }
  | _ => none

end Event

/-- What a movement does to the books. -/
def Movement.entry : Movement → Entry
  | .fundsIn _ _ nonce token amount _ _ commission _ _ =>
    ⟨token, amount.val, commission.val, some nonce⟩
  | .fundsOut _ token amount _ _ _ => ⟨token, -amount.val, 0, none⟩
  | .transferOut _ _ nonce token amount => ⟨token, -amount.val, 0, some nonce⟩
  | .withdrawCommission token amount => ⟨token, -amount.val, -amount.val, none⟩

/-- **An event says what the movement does to the books.** -/
theorem Movement.entry?_event (m : Movement) : m.event.entry? = some m.entry := by
  cases m <;>
    simp [event, entry, Event.entry?, Event.amount?, Event.nonce?, Event.nat?, Attribute.amount,
      Attribute.number, Amount.text, List.lookup_cons, UInt64.toNat_lt_size]

/-- An entry says what a posting books under given settings. -/
structure Entry.Records (entry : Entry) (p : Posting) (config : Config) : Prop where
  token_eq : entry.token = p.token
  held_eq : entry.held + p.released + p.withdrawn = p.deposited
  reserved_eq : entry.reserved + p.withdrawn = p.charged config.stablePercent
  nonce_eq : entry.nonce? = p.nonce?

/-- The movement of a posting does to the books what is booked. -/
theorem Posting.records_movement {p : Posting} {config : Config} {commission : Amount}
    (h : commission.val = p.charged config.stablePercent) :
    (p.movement config commission).entry.Records p config := by
  cases p <;>
    constructor <;>
      simp [movement, Deposit.movement, Movement.entry, token, deposited, released, withdrawn,
        charged, nonce?, h]

/-! ### Adding entries up -/

/-- The books as far as they have been read from a journal. -/
structure Tally where
  /-- What is held of each token. -/
  held : String → ℤ
  /-- What is reserved of each token. -/
  reserved : String → ℤ
  /-- The nonces that have been consumed. -/
  used : List UInt64

namespace Tally

/-- The books in front of all entries. -/
def blank : Tally := ⟨fun _ => 0, fun _ => 0, []⟩

/-- The books with an entry added. -/
def add (tally : Tally) (entry : Entry) : Tally where
  held := Function.update tally.held entry.token (tally.held entry.token + entry.held)
  reserved :=
    Function.update tally.reserved entry.token (tally.reserved entry.token + entry.reserved)
  used := entry.nonce?.toList ++ tally.used

/-- The books behind a list of events, if all of them can be read. -/
def replay (tally : Tally) (events : List Event) : Option Tally :=
  events.foldlM (fun tally event => event.entry?.map tally.add) tally

/-- A tally tells the books of a store: the amounts of every pool, and which nonces are used. -/
structure Tells (tally : Tally) (s : Store) : Prop where
  exists_pool : ∀ token, ∃ pool, s.pool token = .ok pool ∧ tally.held token = pool.held.val ∧
    tally.reserved token = pool.reserved.val
  isUsed : ∀ n, s.isUsed n = .ok (decide (n ∈ tally.used))

theorem replay_nil (tally : Tally) : tally.replay [] = some tally := rfl

theorem replay_append (tally : Tally) (events more : List Event) :
    tally.replay (events ++ more) = (tally.replay events).bind (·.replay more) :=
  List.foldlM_append

theorem replay_movement (tally : Tally) (m : Movement) :
    tally.replay [m.event] = some (tally.add m.entry) := by
  simp only [replay, List.foldlM_cons, List.foldlM_nil, m.entry?_event, Option.map_some]
  rfl

section Add

variable (tally : Tally) (entry : Entry) {token : String}

theorem held_add : (tally.add entry).held entry.token = tally.held entry.token + entry.held :=
  Function.update_self ..

theorem held_add_of_ne (h : entry.token ≠ token) :
    (tally.add entry).held token = tally.held token :=
  Function.update_of_ne h.symm ..

theorem reserved_add :
    (tally.add entry).reserved entry.token = tally.reserved entry.token + entry.reserved :=
  Function.update_self ..

theorem reserved_add_of_ne (h : entry.token ≠ token) :
    (tally.add entry).reserved token = tally.reserved token :=
  Function.update_of_ne h.symm ..

end Add

theorem mem_used_add {tally : Tally} {entry : Entry} {n : UInt64} :
    n ∈ (tally.add entry).used ↔ n ∈ entry.nonce? ∨ n ∈ tally.used := by
  simp [add]

variable {tally : Tally} {s t : Store} {r : Response}

theorem tells_blank : blank.Tells ∅ where
  exists_pool token := ⟨.empty, Store.pool_empty token, rfl, rfl⟩
  isUsed n := Store.isUsed_empty n

/-- The same books are told by the same tally. -/
theorem Tells.of_sameBooks (h : tally.Tells s) (hbooks : s.SameBooks t) : tally.Tells t where
  exists_pool token := by
    obtain ⟨pool, hpool, hamounts⟩ := h.exists_pool token
    exact ⟨pool, (hbooks.pool_eq token).trans hpool, hamounts⟩
  isUsed n := (hbooks.isUsed_eq n).trans (h.isUsed n)

/-- **What a posting books is told behind it**, once it has been recorded. -/
theorem Tells.add_entry {p : Posting} {context : Context} {config : Config} {before after : Pool}
    {entry : Entry} (h : tally.Tells s) (hb : p.Booked context config s before after r t)
    (hentry : entry.Records p config) : (tally.add entry).Tells t where
  exists_pool token := by
    obtain ⟨pool, hpool, hheld, hreserved⟩ := h.exists_pool token
    rw [hb.store_eq]
    by_cases heq : entry.token = token
    · subst heq
      rw [hentry.token_eq] at hpool
      obtain rfl : pool = before := Except.ok.inj (hpool.symm.trans hb.before_eq)
      refine ⟨after, ?_, ?_, ?_⟩
      · rw [hentry.token_eq]
        exact p.pool_write s after
      · have hbooked := hb.held_eq
        have hrecorded := hentry.held_eq
        rw [held_add]
        omega
      · have hbooked := hb.reserved_eq
        have hrecorded := hentry.reserved_eq
        rw [reserved_add]
        omega
    · have hne : p.token ≠ token := hentry.token_eq ▸ heq
      refine ⟨pool, (Posting.pool_write_of_ne hne s after).trans hpool, ?_, ?_⟩
      · rw [held_add_of_ne tally entry heq, hheld]
      · rw [reserved_add_of_ne tally entry heq, hreserved]
  isUsed n := by
    rw [hb.store_eq]
    by_cases hn : n ∈ p.nonce?
    · have hmem : n ∈ (tally.add entry).used := mem_used_add.mpr (.inl (hentry.nonce_eq ▸ hn))
      rw [Posting.isUsed_write_of_mem hn, decide_eq_true hmem]
    · rw [Posting.isUsed_write_of_notMem hn, h.isUsed n]
      simp only [mem_used_add, hentry.nonce_eq, hn, false_or]

end Tally

/-! ### Which events a call announces -/

/-- The kinds of events that stand for a command. -/
def Command.announced : Command → List String
  | .bridgeIn _ | .receive _ => ["bridge_funds_in"]
  | .bridgeOut _ => ["bridge_funds_out"]
  | .transferOut _ => ["transfer_out"]
  | .withdrawCommission .. => ["withdraw_commission"]
  | .setStableCommissionPercent _ | .pause | .unpause => []
  | .proposeOwner _ | .acceptOwnership | .cancelOwnershipProposal => []

/-- The kinds of events that stand for a call: those of its command, if its message is one. -/
def Call.announced : Call → List String
  | .execute _ _ message =>
    match (Schema.command.read message : Except HostError Command) with
    | .ok c => c.announced
    | .error _ => []
  | .instantiate .. | .migrate .. => []

/-- The kinds of events that stand for a call which succeeds; a call that fails has none. -/
def Turn.announced (turn : Turn) : List String :=
  match turn.outcome with
  | .ok _ => turn.call.announced
  | .error _ => []

variable {recover : Recovery} {context : Context} {sender : String} {s t : Store} {r : Response}

/-- A deposit announces that funds have come in. -/
theorem Deposit.kinds_of_eq_ok {d : Deposit} (h : (d.book recover context).run.run s = (.ok r, t)) :
    r.events.map Event.kind = ["bridge_funds_in"] := by
  obtain ⟨_, _, _, _, -, -, -, -, -, -, -, rfl, -⟩ := book_eq_ok.mp h
  rfl

/-- **A command that succeeds announces the one event that stands for it**, or none. -/
theorem Command.kinds_of_eq_ok {c : Command}
    (h : (c.handle recover context sender).run.run s = (.ok r, t)) :
    r.events.map Event.kind = c.announced := by
  cases c with
  | bridgeIn request => exact Deposit.kinds_of_eq_ok h
  | receive notice =>
    obtain ⟨d, -, hd⟩ := Handler.host_bind_eq_ok.mp h
    exact Deposit.kinds_of_eq_ok hd
  | transferOut request =>
    obtain ⟨_, _, _, -, -, -, -, -, -, rfl, -⟩ := Release.present_eq_ok.mp h
    rfl
  | bridgeOut settlement =>
    obtain ⟨_, _, _, -, -, -, -, -, -, -, rfl, -⟩ := Release.settle_eq_ok.mp h
    rfl
  | withdrawCommission token amount =>
    obtain ⟨_, _, _, -, -, -, -, -, rfl, -⟩ := Release.withdrawCommission_eq_ok.mp h
    rfl
  | _ =>
    -- the commands of administration ask nothing of the books
    rw [(sameBooks_of_eq_ok rfl h).2.2]
    rfl

namespace Call

theorem kinds_of_eq_ok {call : Call} (h : (call.handle recover).run.run s = (.ok r, t)) :
    r.events.map Event.kind = call.announced := by
  cases call with
  | execute context sender message =>
    obtain ⟨c, hcommand, hc⟩ := Handler.host_bind_eq_ok.mp h
    rw [announced, hcommand]
    exact Command.kinds_of_eq_ok hc
  | instantiate | migrate =>
    rw [(sameBooks_of_eq_ok rfl h).2.2]
    rfl

/-- A turn has announced the events that stand for its call. -/
theorem kinds_turn (recover : Recovery) (call : Call) (s : Store) :
    (call.turn recover s).response.events.map Event.kind = (call.turn recover s).announced := by
  rw [Turn.response, Turn.announced, turn, perform]
  rcases hrun : (call.handle recover).run.run s with ⟨failure | r, t⟩
  · rfl
  · exact kinds_of_eq_ok hrun

/-! ### Runs -/

/-- All that a run announces, in order. -/
def journal (recover : Recovery) (calls : List Call) (s : Store) : List Event :=
  (history recover calls s).flatMap (·.response.events)

/-- **A tally that tells the books in front of a call tells them behind it**, with the events of the
call. -/
theorem exists_replay_turn {tally : Tally} (recover : Recovery) (call : Call) (h : tally.Tells s) :
    ∃ tally', tally.replay (call.turn recover s).response.events = some tally' ∧
      tally'.Tells (call.perform recover s).2 := by
  rcases turn_cases recover call s with
    ⟨-, hbooks, -, hevents⟩ | ⟨p, context, config, before, after, -, hb⟩
  · rw [hevents]
    exact ⟨tally, tally.replay_nil, h.of_sameBooks hbooks⟩
  · obtain ⟨commission, hcommission, hevents⟩ := hb.events_eq
    rw [hevents]
    exact ⟨_, tally.replay_movement _, h.add_entry hb (Posting.records_movement hcommission)⟩

/-- The journal of a run takes a tally of the books in front of it to one of those behind it. -/
theorem exists_replay_journal {tally : Tally} (calls : List Call) (h : tally.Tells s) :
    ∃ tally', tally.replay (journal recover calls s) = some tally' ∧
      tally'.Tells (run recover calls s) := by
  induction calls generalizing s tally with
  | nil => exact ⟨tally, tally.replay_nil, h⟩
  | cons call calls ih =>
    obtain ⟨middle, hmiddle, hs⟩ := exists_replay_turn recover call h
    obtain ⟨tally', htally', ht⟩ := ih hs
    refine ⟨tally', ?_, ht⟩
    rw [journal, history, List.flatMap_cons, Tally.replay_append, hmiddle]
    exact htally'

theorem kinds_history (calls : List Call) (s : Store) :
    ∀ turn ∈ history recover calls s, turn.response.events.map Event.kind = turn.announced := by
  intro turn hturn
  obtain ⟨call, -, s', rfl⟩ := exists_of_mem_history hturn
  exact kinds_turn recover call s'

/-- **The journal is faithful.** In every run from the empty store, each deposit, each release and
each withdrawal of commission that succeeds has announced exactly one event, of its own kind, and no
other call has announced any; and the tally of all events, read in order, tells the pools and the
used nonces of the store that the run leaves. -/
theorem journal_faithful (recover : Recovery) (calls : List Call) :
    (∀ turn ∈ history recover calls ∅,
        turn.response.events.map Event.kind = turn.announced) ∧
      ∃ tally, Tally.blank.replay (journal recover calls ∅) = some tally ∧
        tally.Tells (run recover calls ∅) :=
  ⟨kinds_history calls ∅, exists_replay_journal calls Tally.tells_blank⟩

end Call

end TokenCustody
