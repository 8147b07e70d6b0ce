import TokenCustody.Proofs.Blindness
import TokenCustody.Proofs.Footprint

/-!
# One store is as good as separate ones

Settings, proposed owner, version, pools and marks of nonces stand in one store of texts under byte
strings. A token is any text there, also one with zero bytes in it, or one that spells a plain name
or the start of a namespace. Still no two items meet: each write is read back under its own key with
the value that was written, and under all other keys nothing changes (`Store.Received`); a write that
is refused leaves no trace.

So every item has a history of its own. What is read under a key behind any sequence of writes, and
how a further write there ends, depends on the writes under this key alone, with all others taken
out (`Write.items_independent`). The induction is on agreement at one key: writes there are
blind to everything else (`Write.blindTo`), and writes elsewhere do not touch it.
-/

namespace TokenCustody

open Store (AgreesAt AgreesOutside Shares)

/-! ### What is read under a key -/

/-- What is read under a key. An unknown token has an empty pool, and a nonce without a mark is
unused. -/
abbrev Key.Reading : Key → Type
  | .config => Config
  | .pendingOwner => Option String
  | .version => Option Version
  | .pool _ => Pool
  | .nonce _ => Bool

namespace Store

/-- The reading of a key, as the bridge takes it. -/
def read (s : Store) : (key : Key) → Except HostError key.Reading
  | .config => s.config
  | .pendingOwner => s.load? .pendingOwner
  | .version => s.load? .version
  | .pool token => s.pool token
  | .nonce n => s.isUsed n

/-- Agreement at its own key shares a slot. -/
theorem AgreesAt.shares_self {α : Type} [Codec α] (slot : Slot α) :
    Shares (AgreesAt {slot.key.bytes}) slot :=
  AgreesAt.shares (Set.mem_singleton _)

/-- Stores that agree at a key say the same under it. -/
theorem AgreesAt.read_eq {key : Key} {s s' : Store} (h : AgreesAt {key.bytes} s s') :
    s'.read key = s.read key := by
  cases key with
  | config => exact (AgreesAt.shares_self .config).config_eq h
  | pendingOwner => exact (AgreesAt.shares_self .pendingOwner).load?_eq s s' h
  | version => exact (AgreesAt.shares_self .version).load?_eq s s' h
  | pool token => exact (AgreesAt.shares_self (.pool token)).pool_eq h
  | nonce n => exact (AgreesAt.shares_self (.nonce n)).isUsed_eq h

theorem AgreesOutside.save_self {α : Type} [Codec α] (slot : Slot α) (a : α) (s : Store) :
    s.AgreesOutside [slot.key] (s.save slot a) :=
  (AgreesOutside.refl _ s).save List.mem_cons_self a

/-- Stores that differ under one key agree at every other one. -/
theorem AgreesOutside.agreesAt {written key : Key} {s t : Store} (h : AgreesOutside [written] s t)
    (hkey : key ≠ written) : AgreesAt {key.bytes} s t := by
  intro b hb
  obtain rfl : b = key.bytes := hb
  exact h.getElem?_eq (List.mem_singleton.not.mpr hkey)

end Store

/-! ### Writes -/

/-- What the bridge does to its store, under one key at a time. -/
inductive Write where
  | config (c : Config)
  | pendingOwner (account : String)
  | noPendingOwner
  | version (v : Version)
  /-- The pool of a token, which is checked before it is stored. -/
  | pool (token : String) (p : Pool)
  /-- The mark of a consumed nonce, whatever stands there. -/
  | mark (n : UInt64)
  /-- The mark of a nonce that has been unused until then. -/
  | consume (n : UInt64)

namespace Write

/-- The key under which a write goes. -/
def key : Write → Key
  | .config _ => .config
  | .pendingOwner _ | .noPendingOwner => .pendingOwner
  | .version _ => .version
  | .pool token _ => .pool token
  | .mark n | .consume n => .nonce n

/-- What is to be read behind a write. -/
def value : (w : Write) → w.key.Reading
  | .config c => c
  | .pendingOwner account => some account
  | .noPendingOwner => none
  | .version v => some v
  | .pool _ p => p
  | .mark _ | .consume _ => true

/-- The handler of a write. -/
def handler : Write → Handler Unit
  | .config c => Handler.save .config c
  | .pendingOwner account => Handler.save .pendingOwner account
  | .noPendingOwner => Handler.remove .pendingOwner
  | .version v => Handler.save .version v
  | .pool token p => Handler.storePool token p
  | .mark n => Handler.save (.nonce n) true
  | .consume n => Nonce.consume n

/-- How a write ends, and the store it leaves. -/
def perform (w : Write) (s : Store) : Except (Failure Rejection) Unit × Store :=
  w.handler.run.run s

/-- The store behind a sequence of writes, whether each of them succeeds or not. -/
def performAll : List Write → Store → Store
  | [], s => s
  | w :: ws, s => performAll ws (w.perform s).2

/-- Whether a write succeeds on a store: a pool must be solvent, and a nonce that is to be consumed
must be unused. -/
def Admissible (s : Store) : Write → Prop
  | .pool _ p => p.Solvent
  | .consume n => s.isUsed n = .ok false
  | _ => True

/-- The store that a write leaves when it succeeds. -/
def put (s : Store) : Write → Store
  | .config c => s.save .config c
  | .pendingOwner account => s.save .pendingOwner account
  | .noPendingOwner => s.remove .pendingOwner
  | .version v => s.save .version v
  | .pool token p => s.save (.pool token) p
  | .mark n | .consume n => s.save (.nonce n) true

end Write

/-- A store has received a write: the value is read under its key, under every other key the same is
read as before, and every other entry is the same to the byte. -/
structure Store.Received (s : Store) (w : Write) (t : Store) : Prop where
  read_key : t.read w.key = .ok w.value
  read_of_ne : ∀ key, key ≠ w.key → t.read key = s.read key
  entries : s.AgreesOutside [w.key] t

/-! ### One write -/

namespace Write

variable {w : Write} {s s' : Store}

theorem perform_pool_of_not_solvent {token : String} {p : Pool} (h : ¬ p.Solvent) :
    (pool token p).perform s =
      (.error (.rejected (.poolInvariantViolated p.held p.reserved)), s) := by
  refine Handler.run_bind_of_error ?_
  rw [Handler.run_accept, Pool.checkSolvent, if_neg h, mapError_error]

/-- **A write that is admissible succeeds.** -/
theorem perform_of_admissible (h : w.Admissible s) : w.perform s = (.ok (), w.put s) := by
  cases w with
  | pool token p => exact Handler.storePool_eq_ok.mpr ⟨h, rfl⟩
  | consume n => exact Nonce.consume_eq_ok.mpr ⟨h, rfl⟩
  | _ => rfl

/-- **Any other write fails**, and leaves the store as it is. -/
theorem perform_of_not_admissible (h : ¬ w.Admissible s) :
    ∃ failure, w.perform s = (.error failure, s) := by
  cases w with
  | pool token p => exact ⟨_, perform_pool_of_not_solvent h⟩
  | consume n =>
    rcases hused : s.isUsed n with cause | used
    · refine ⟨.rejected (.host cause), Handler.run_bind_of_error ?_⟩
      rw [Handler.run_ask, hused, mapError_error]
    · cases used with
      | false => exact absurd hused h
      | true => exact ⟨_, Nonce.consume_of_isUsed hused⟩
  | _ => exact absurd trivial h

theorem read_put (w : Write) (s : Store) : (w.put s).read w.key = .ok w.value := by
  cases w with
  | config c => exact s.config_save c
  | pendingOwner account => exact s.load?_save .pendingOwner account
  | noPendingOwner => exact s.load?_remove .pendingOwner
  | version v => exact s.load?_save .version v
  | pool token p => exact s.pool_save token p
  | mark n | consume n => exact s.isUsed_save n true

theorem agreesOutside_put (w : Write) (s : Store) : s.AgreesOutside [w.key] (w.put s) := by
  cases w with
  | config c => exact AgreesOutside.save_self .config c s
  | pendingOwner account => exact AgreesOutside.save_self .pendingOwner account s
  | noPendingOwner => exact (AgreesOutside.refl _ s).remove List.mem_cons_self
  | version v => exact AgreesOutside.save_self .version v s
  | pool token p => exact AgreesOutside.save_self (.pool token) p s
  | mark n | consume n => exact AgreesOutside.save_self (.nonce n) true s

theorem agreesOutside_perform (w : Write) (s : Store) :
    s.AgreesOutside [w.key] (w.perform s).2 := by
  by_cases h : w.Admissible s
  · rw [perform_of_admissible h]
    exact agreesOutside_put w s
  · obtain ⟨failure, hfails⟩ := perform_of_not_admissible h
    rw [hfails]
    exact .refl _ s

theorem received_put (w : Write) (s : Store) : s.Received w (w.put s) where
  read_key := read_put w s
  read_of_ne _ hkey := ((agreesOutside_put w s).agreesAt hkey).read_eq
  entries := agreesOutside_put w s

/-! ### Sequences of writes -/

/-- A write looks at its own key only. -/
theorem blindTo (w : Write) : w.handler.BlindTo (AgreesAt {w.key.bytes}) := by
  cases w with
  | config c => exact .save (AgreesAt.shares_self .config) c
  | pendingOwner account => exact .save (AgreesAt.shares_self .pendingOwner) account
  | noPendingOwner => exact .remove (AgreesAt.shares_self .pendingOwner)
  | version v => exact .save (AgreesAt.shares_self .version) v
  | pool token p => exact Handler.blindTo_storePool (AgreesAt.shares_self (.pool token)) p
  | mark n => exact .save (AgreesAt.shares_self (.nonce n)) true
  | consume n => exact Nonce.blindTo_consume (AgreesAt.shares_self (.nonce n))

/-- **At one key, the writes elsewhere do not count**: to leave them out leads to a store that agrees
there. -/
theorem agreesAt_performAll {key : Key} (ws : List Write) (h : AgreesAt {key.bytes} s s') :
    AgreesAt {key.bytes} (performAll (ws.filter (·.key = key)) s) (performAll ws s') := by
  induction ws generalizing s s' with
  | nil => exact h
  | cons w ws ih =>
    -- a write under the key is made on both sides, any other one on one side only
    by_cases hw : w.key = key
    · rw [List.filter_cons_of_pos (by simpa using hw)]
      subst hw
      exact ih (blindTo w s s' h).2
    · rw [List.filter_cons_of_neg (by simpa using hw)]
      have hkeeps := (agreesOutside_perform w s').agreesAt (Ne.symm hw)
      exact ih fun b hb => (hkeeps b hb).trans (h b hb)

/-- **The items of a store are independent.** No two keys are written alike, whatever texts the tokens
are. On every store, whether a run leaves it or not, an admissible write succeeds: its value is read
under its key, and everywhere else nothing changes. Any other write fails and leaves no trace, in
particular that of a pool of which more is reserved than held. So behind any sequence of writes, what
is read under a key, and how one more write under it ends, is what it would be if there had been no
writes but those under this key. -/
theorem items_independent :
    (∀ key key' : Key, key.bytes = key'.bytes → key = key') ∧
      (∀ (w : Write) (s : Store),
        (w.Admissible s → ∃ t, w.perform s = (.ok (), t) ∧ s.Received w t) ∧
          (¬ w.Admissible s → ∃ failure, w.perform s = (.error failure, s))) ∧
      (∀ (token : String) (p : Pool) (s : Store), p.held < p.reserved →
        (Handler.storePool token p).run.run s =
          (.error (.rejected (.poolInvariantViolated p.held p.reserved)), s)) ∧
      ∀ (ws : List Write) (s : Store),
        (∀ key, (performAll ws s).read key =
          (performAll (ws.filter (·.key = key)) s).read key) ∧
        ∀ w : Write, (w.perform (performAll ws s)).1 =
          (w.perform (performAll (ws.filter (·.key = w.key)) s)).1 := by
  refine ⟨fun key key' h => Key.bytes_injective h, fun w s => ⟨fun h => ?_, fun h => ?_⟩,
    fun token p s h => ?_, fun ws s => ?_⟩
  · exact ⟨w.put s, perform_of_admissible h, received_put w s⟩
  · exact perform_of_not_admissible h
  · exact perform_pool_of_not_solvent (Nat.not_le_of_lt h)
  · have hagrees (key : Key) :
        AgreesAt {key.bytes} (performAll (ws.filter (·.key = key)) s) (performAll ws s) :=
      agreesAt_performAll ws fun _ _ => rfl
    refine ⟨fun key => (hagrees key).read_eq, fun w => ?_⟩
    exact (blindTo w _ _ (hagrees w.key)).1.eq.symm

/-- A token may spell what the keys of all nonces start with, zero byte and all. Its pool is stored if
no more is reserved than held, and otherwise refused; and a nonce that has been consumed among such
writes is not consumed again. -/
theorem items_independent_of_lookalike :
    let token := "\x00\x0bused_nonces"
    let full : Pool := ⟨⟨10, by decide⟩, ⟨10, by decide⟩⟩
    let broken : Pool := ⟨⟨10, by decide⟩, ⟨11, by decide⟩⟩
    let writes : List Write :=
      [.pool token full, .consume 7, .pool "config" full, .pool token broken]
    (Key.pool token).bytes ≠ (Key.nonce 7).bytes ∧
      (∃ t, (Write.pool token full).perform ∅ = (.ok (), t) ∧ t.pool token = .ok full ∧
        t.isUsed 7 = .ok false) ∧
      (∃ failure, (Write.pool token broken).perform ∅ = (.error failure, ∅)) ∧
      (Handler.storePool token broken).run.run ∅ =
        (.error (.rejected (.poolInvariantViolated broken.held broken.reserved)), ∅) ∧
      ((consume 7).perform (performAll writes ∅)).1 =
        .error (.rejected (.alreadyUsedSignature 7)) := by
  intro token full broken writes
  obtain ⟨hkeys, hwrites, hbroken, hhistory⟩ := items_independent
  obtain ⟨t, hfull, hreceived⟩ := (hwrites (.pool token full) ∅).1 (by decide : full.Solvent)
  have hunused : (consume 7).Admissible ∅ := Store.isUsed_empty 7
  have hconsumed : performAll [consume 7] ∅ = (∅ : Store).save (.nonce 7) true :=
    congrArg Prod.snd (perform_of_admissible hunused)
  refine ⟨fun h => ?_, ⟨t, hfull, hreceived.read_key, ?_⟩, ?_, ?_, ?_⟩
  · cases hkeys _ _ h
  · exact (hreceived.read_of_ne (.nonce 7) (by simp [key])).trans (Store.isUsed_empty 7)
  · exact (hwrites (.pool token broken) ∅).2 (by decide : ¬ broken.Solvent)
  · exact hbroken token broken ∅ (by decide)
  · rw [(hhistory writes ∅).2 (consume 7)]
    change ((consume 7).perform (performAll [consume 7] ∅)).1 = _
    rw [hconsumed]
    exact congrArg Prod.fst (Nonce.consume_of_isUsed (Store.isUsed_save ∅ 7 true))

end Write

end TokenCustody
