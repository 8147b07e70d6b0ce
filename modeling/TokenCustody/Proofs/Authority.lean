import TokenCustody.Proofs.Atomicity
import TokenCustody.Proofs.Posting

/-!
# What takes the owner

Some effects on the store are the owner's privilege (`Command.Privileged`): to change the
percentage, to pause the bridge, to propose another owner or to take a proposal back, to let
commission go, and to let tokens go without a signature. The commands that may have such an effect
are those of `Command.IsOwners`, and each of them asks for the owner before anything else
(`Command.run_of_ne_owner`); the other commands have none, whoever gives them
(`Command.not_privileged`). Together this is `Command.owner_of_privileged`.
-/

namespace TokenCustody

namespace Command

/-- The commands that only the owner may give. -/
def IsOwners : Command → Prop
  | .bridgeOut _ | .withdrawCommission .. | .setStableCommissionPercent _ => True
  | .pause | .unpause | .proposeOwner _ | .cancelOwnershipProposal => True
  | .bridgeIn _ | .receive _ | .transferOut _ | .acceptOwnership => False

/-- A command has done to the store what is the owner's privilege. -/
inductive Privileged (c : Command) (sender : String) (s t : Store) : Prop where
  /-- The stable percentage has changed. -/
  | percent (h : t.config.map Config.stablePercent ≠ s.config.map Config.stablePercent)
  /-- The bridge has been paused, or runs on. -/
  | paused (h : t.config.map Config.paused ≠ s.config.map Config.paused)
  /-- The proposal of an owner has changed, and not because the proposed one has accepted. -/
  | proposal (h : t.load? .pendingOwner ≠ s.load? .pendingOwner)
    (hc : ¬ (c = .acceptOwnership ∧ s.load? .pendingOwner = .ok (some sender)))
  /-- Less is reserved of a token. -/
  | reserved (token : String) (p q : Pool) (hp : s.pool token = .ok p) (hq : t.pool token = .ok q)
    (h : q.reserved < p.reserved)
  /-- Less is held of a token, and no nonce has been consumed for it. -/
  | held (token : String) (p q : Pool) (hp : s.pool token = .ok p) (hq : t.pool token = .ok q)
    (h : q.held < p.held) (hunused : ∀ n, s.isUsed n = .ok false → t.isUsed n ≠ .ok true)

end Command

variable {recover : Recovery} {context : Context} {config : Config} {sender : String}
variable {s t : Store} {r : Response} {c : Command}

/-! ### Commands of the owner -/

/-- Whoever is not the owner is sent away. -/
theorem Release.asOwner_of_ne (hconfig : s.config = .ok config) (hne : sender ≠ config.owner) :
    (asOwner sender).run.run s = (.error (.rejected .unauthorized), s) := by
  rw [asOwner, Handler.run_bind_of_ok (Handler.ask_eq_ok.mpr ⟨hconfig, rfl⟩)]
  exact Handler.run_bind_of_error (by rw [Handler.run_require, if_neg hne])

namespace Command

/-- A command of the owner asks for the owner before anything else. -/
theorem exists_handle_eq (recover : Recovery) (context : Context) (sender : String)
    (hc : c.IsOwners) : ∃ rest : Config → Handler Response,
      c.handle recover context sender = Release.asOwner sender >>= rest := by
  cases c with
  | bridgeOut | withdrawCommission | setStableCommissionPercent | pause | unpause => exact ⟨_, rfl⟩
  | proposeOwner | cancelOwnershipProposal => exact ⟨_, rfl⟩
  | bridgeIn | receive | transferOut | acceptOwnership => exact absurd hc id

/-- **A command of the owner that somebody else gives** is refused for that reason, whatever else
may be wrong with it. -/
theorem run_of_ne_owner (hc : c.IsOwners) (hconfig : s.config = .ok config)
    (hne : sender ≠ config.owner) :
    (c.handle recover context sender).run.run s = (.error (.rejected .unauthorized), s) := by
  obtain ⟨rest, hrest⟩ := exists_handle_eq recover context sender hc
  rw [hrest]
  exact Handler.run_bind_of_error (Release.asOwner_of_ne hconfig hne)

/-! ### Privileged effects -/

/-- Where the books, the percentage and the pause stay as they are, and the proposal does unless it
is accepted, no privilege has been used. -/
theorem not_privileged_of_sameBooks (hbooks : s.SameBooks t)
    (hpercent : t.config.map Config.stablePercent = s.config.map Config.stablePercent)
    (hpaused : t.config.map Config.paused = s.config.map Config.paused)
    (hproposal : t.load? .pendingOwner = s.load? .pendingOwner ∨
      c = .acceptOwnership ∧ s.load? .pendingOwner = .ok (some sender)) :
    ¬ c.Privileged sender s t := by
  intro h
  cases h with
  | percent h => exact h hpercent
  | paused h => exact h hpaused
  | proposal h hc => exact hproposal.elim h hc
  | reserved token p q hp hq h =>
    rw [hbooks.pool_eq, hp] at hq
    cases hq
    exact absurd h (Nat.lt_irrefl _)
  | held token p q hp hq h hunused =>
    rw [hbooks.pool_eq, hp] at hq
    cases hq
    exact absurd h (Nat.lt_irrefl _)

theorem not_privileged_self (c : Command) (sender : String) (s : Store) :
    ¬ c.Privileged sender s s :=
  not_privileged_of_sameBooks (.refl s) rfl rfl (.inl rfl)

end Command

namespace Posting

variable {p : Posting} {before after : Pool} {n : UInt64}

/-- Commission is withdrawn without a nonce. -/
theorem withdrawn_of_nonce (hn : n ∈ p.nonce?) : p.withdrawn = 0 := by
  cases p with
  | withdrawal => cases hn
  | deposit | settlement | release => rfl

/-- A posting changes the pool of its token only. -/
theorem Booked.pool_cases (hb : p.Booked context config s before after r t) {token : String}
    {q q' : Pool} (hq : s.pool token = .ok q) (hq' : t.pool token = .ok q') :
    q' = q ∨ q = before ∧ q' = after := by
  rw [hb.store_eq] at hq'
  by_cases htoken : p.token = token
  · obtain rfl := htoken
    rw [pool_write] at hq'
    exact .inr ⟨Except.ok.inj (hq.symm.trans hb.before_eq), (Except.ok.inj hq').symm⟩
  · rw [pool_write_of_ne htoken, hq] at hq'
    exact .inl (Except.ok.inj hq').symm

/-- A posting that consumes a nonce takes no privilege. -/
theorem Booked.not_privileged (hb : p.Booked context config s before after r t)
    (hn : n ∈ p.nonce?) : ¬ c.Privileged sender s t := by
  have hconfig : t.config = s.config := by rw [hb.store_eq, config_write]
  have hreserved : before.reserved.val ≤ after.reserved.val := by
    have hsum := hb.reserved_eq
    rw [withdrawn_of_nonce hn] at hsum
    omega
  intro h
  cases h with
  | percent h => exact h (by rw [hconfig])
  | paused h => exact h (by rw [hconfig])
  | proposal h hc => exact h (by rw [hb.store_eq, load?_pendingOwner_write])
  | reserved token q q' hq hq' h =>
    rcases hb.pool_cases hq hq' with rfl | ⟨rfl, rfl⟩
    · exact absurd h (Nat.lt_irrefl _)
    · exact absurd h (Nat.not_lt.mpr hreserved)
  | held token q q' hq hq' h hunused =>
    refine hunused n (hb.unused n hn) ?_
    rw [hb.store_eq]
    exact isUsed_write_of_mem hn s after

/-- So whoever carries it out needs none. -/
theorem not_privileged_of_eq_ok (h : (p.handle recover context sender).run.run s = (.ok r, t))
    (hn : n ∈ p.nonce?) : ¬ c.Privileged sender s t := by
  obtain ⟨config, before, after, hb⟩ := exists_booked h
  exact hb.not_privileged hn

end Posting

namespace Command

/-- **A command that is not the owner's** takes no privilege, whoever gives it and however it
ends. -/
theorem not_privileged (hc : ¬ c.IsOwners) (s : Store) :
    ¬ c.Privileged sender s ((c.handle recover context sender).run.run s).2 := by
  rcases hrun : (c.handle recover context sender).run.run s with ⟨failure | r, t⟩
  · obtain rfl := c.atomic_handle s failure t hrun
    exact not_privileged_self c sender t
  change ¬ c.Privileged sender s t
  cases c with
  | bridgeIn request =>
    exact Posting.not_privileged_of_eq_ok (p := .deposit (.ofRequest sender request)) hrun rfl
  | receive notice =>
    obtain ⟨d, -, hbook⟩ := Handler.host_bind_eq_ok.mp hrun
    exact Posting.not_privileged_of_eq_ok (p := .deposit d) hbook rfl
  | transferOut request =>
    exact Posting.not_privileged_of_eq_ok (p := .release request) hrun rfl
  | acceptOwnership =>
    obtain ⟨config, hpending, hconfig, -, rfl⟩ := Administration.acceptOwnership_eq_ok.mp hrun
    have hafter : ((s.save .config { config with owner := sender }).remove .pendingOwner).config =
        .ok { config with owner := sender } := by
      rw [Store.config_remove_of_ne _ (by simp), Store.config_save]
    refine not_privileged_of_sameBooks ((Store.SameBooks.refl s).save_config _).remove_pendingOwner
      ?_ ?_ (.inr ⟨rfl, hpending⟩)
    · rw [hafter, hconfig]
      rfl
    · rw [hafter, hconfig]
      rfl
  | bridgeOut | withdrawCommission | setStableCommissionPercent | pause | unpause =>
    exact absurd trivial hc
  | proposeOwner | cancelOwnershipProposal => exact absurd trivial hc

/-- **Privileges are the owner's.** Whoever does to a store what is the owner's privilege is the
owner that the store names; and a command of the owner, given by anybody else, is refused as
unauthorized and leaves the store as it was, whatever it asks for and whatever the store holds. -/
theorem owner_of_privileged (hconfig : s.config = .ok config) :
    let run := (c.handle recover context sender).run.run s
    (c.Privileged sender s run.2 → sender = config.owner) ∧
      (c.IsOwners → sender ≠ config.owner → run = (.error (.rejected .unauthorized), s)) := by
  intro run
  refine ⟨fun h => ?_, fun hc hne => run_of_ne_owner hc hconfig hne⟩
  by_contra hne
  by_cases hc : c.IsOwners
  · have hrun : run = (.error (.rejected .unauthorized), s) := run_of_ne_owner hc hconfig hne
    rw [hrun] at h
    exact not_privileged_self c sender s h
  · exact not_privileged hc s h

/-- The owner pauses the bridge; a stranger cannot withdraw even nothing of no token. -/
theorem owner_of_privileged_of_pause :
    let context : Context := ⟨0, "network", "bridge"⟩
    let config : Config := ⟨"owner", List.replicate 20 1, 400, false⟩
    let s := (∅ : Store).save .config config
    let t := s.save .config { config with paused := true }
    let withdrawal : Command := .withdrawCommission "" 0
    s.config = .ok config ∧ pause.Privileged "owner" s t ∧ "owner" = config.owner ∧
      (withdrawal.handle Signature.recovery context "stranger").run.run s =
        (.error (.rejected .unauthorized), s) := by
  intro context config s t withdrawal
  have hconfig : s.config = .ok config := Store.config_save ..
  have hrun : (pause.handle Signature.recovery context "owner").run.run s =
      (.ok (Administration.response [("method", "pause")]), t) :=
    Administration.setPaused_eq_ok.mpr ⟨config, hconfig, rfl, nofun, rfl, rfl⟩
  have hpause : pause.Privileged "owner" s t := by
    refine .paused ?_
    rw [hconfig, Store.config_save]
    exact nofun
  have howner : pause.Privileged "owner" s
      ((pause.handle Signature.recovery context "owner").run.run s).2 → "owner" = config.owner :=
    (owner_of_privileged hconfig).1
  rw [hrun] at howner
  exact ⟨hconfig, hpause, howner hpause, (owner_of_privileged hconfig).2 trivial (by decide)⟩

end Command

end TokenCustody
