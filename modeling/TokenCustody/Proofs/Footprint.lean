import TokenCustody.Proofs.Posting

/-!
# What a call leaves alone

The footprint of a call lists the keys of the entries that it may change: those of the pool of its
token and of its nonce, if it asks anything of the books, and else some of those of the settings,
the proposed owner and the version. A call that succeeds leaves every other entry as it is, to the
byte, whether the entry can be read or not (`Call.unchanged_outside_footprint`). A command that
changes the settings changes one field of them (`Command.revise`).

`Store.AgreesOutside` is kept by every write under a key of the footprint, and gives back what is
read under all other keys, since no two values share a key.
-/

namespace TokenCustody

/-! ### Agreement outside some keys -/

/-- Two stores have the same entries, except under given keys. -/
def Store.AgreesOutside (keys : List Key) (s t : Store) : Prop :=
  ∀ b : Bytes, (∀ key ∈ keys, key.bytes ≠ b) → t[b]? = s[b]?

namespace Store.AgreesOutside

variable {α : Type} {keys : List Key} {s t : Store} {slot : Slot α}

theorem refl (keys : List Key) (s : Store) : AgreesOutside keys s s :=
  fun _ _ => rfl

theorem save [Codec α] (h : AgreesOutside keys s t) (hslot : slot.key ∈ keys) (a : α) :
    AgreesOutside keys s (t.save slot a) := by
  intro b hb
  have hne : slot.key.bytes ≠ b := hb slot.key hslot
  rw [Store.save, Std.ExtTreeMap.getElem?_insert, if_neg (by simpa using hne)]
  exact h b hb

theorem remove (h : AgreesOutside keys s t) (hslot : slot.key ∈ keys) :
    AgreesOutside keys s (t.remove slot) := by
  intro b hb
  have hne : slot.key.bytes ≠ b := hb slot.key hslot
  rw [Store.remove, Std.ExtTreeMap.getElem?_erase, if_neg (by simpa using hne)]
  exact h b hb

/-- The entry of a key that is not among the given ones is the same. -/
theorem getElem?_eq (h : AgreesOutside keys s t) {key : Key} (hkey : key ∉ keys) :
    t[key.bytes]? = s[key.bytes]? := by
  refine h key.bytes fun other hother heq => hkey ?_
  rwa [← Key.bytes_injective heq]

theorem load?_eq [Codec α] (h : AgreesOutside keys s t) (hslot : slot.key ∉ keys) :
    t.load? slot = s.load? slot := by
  rw [load?, load?, h.getElem?_eq hslot]

theorem sameBooks (h : AgreesOutside keys s t) (hpool : ∀ token, .pool token ∉ keys)
    (hnonce : ∀ n, .nonce n ∉ keys) : s.SameBooks t where
  load?_pool token := h.load?_eq (hpool token)
  load?_nonce n := h.load?_eq (hnonce n)

theorem config_eq (h : AgreesOutside keys s t) (hconfig : Key.config ∉ keys) :
    t.config = s.config := by
  rw [Store.config, Store.config, h.load?_eq hconfig]

end Store.AgreesOutside

variable {recover : Recovery} {context : Context} {sender : String} {s t : Store} {r : Response}

/-! ### The footprint of what is booked -/

namespace Posting

variable {p : Posting}

/-- The keys under which a posting may change the store. -/
def footprint (p : Posting) : List Key :=
  .pool p.token :: p.nonce?.toList.map .nonce

theorem agreesOutside_write (p : Posting) (s : Store) (q : Pool) :
    s.AgreesOutside p.footprint (p.write s q) := by
  have hpool : s.AgreesOutside p.footprint (s.save (.pool p.token) q) :=
    (Store.AgreesOutside.refl p.footprint s).save List.mem_cons_self q
  rw [write]
  split
  next n hn =>
    refine hpool.save (List.mem_cons_of_mem _ ?_) true
    simp [hn]
  next => exact hpool

end Posting

/-! ### The footprint of a command -/

namespace Command

variable {c : Command} {p : Posting}

/-- The keys under which a command may change the store. -/
def footprint (sender : String) : Command → List Key
  | .bridgeIn q => [.pool q.token, .nonce q.consent.terms.nonce]
  | .receive n =>
    match Hook.read? n.message with
    | some (.bridgeIn consent) => [.pool sender, .nonce consent.terms.nonce]
    | none => []
  | .transferOut q => [.pool q.terms.token, .nonce q.terms.nonce]
  | .bridgeOut q => [.pool q.token]
  | .withdrawCommission token _ => [.pool token]
  | .setStableCommissionPercent _ | .pause | .unpause => [.config]
  | .proposeOwner _ | .cancelOwnershipProposal => [.pendingOwner]
  | .acceptOwnership => [.pendingOwner, .config]

/-- The settings that a command leaves, of those that it has found. -/
def revise (sender : String) (config : Config) : Command → Config
  | .setStableCommissionPercent percent => { config with stablePercent := percent }
  | .pause => { config with paused := true }
  | .unpause => { config with paused := false }
  | .acceptOwnership => { config with owner := sender }
  | _ => config

/-- A command that asks something of the books has the footprint of its posting, and revises
nothing. -/
theorem footprint_of_posting (h : c.posting? sender = some p) :
    c.footprint sender = p.footprint ∧ ∀ config, c.revise sender config = config := by
  cases c with
  | receive notice =>
    obtain ⟨d, hd, rfl⟩ := Option.map_eq_some_iff.mp h
    obtain ⟨-, consent, hhook, rfl⟩ := Deposit.ofNotice_eq_ok.mp (toOption_eq_some.mp hd)
    rw [footprint, hhook]
    exact ⟨rfl, fun _ => rfl⟩
  | bridgeIn | transferOut | bridgeOut | withdrawCommission =>
    obtain rfl := Option.some.inj h
    exact ⟨rfl, fun _ => rfl⟩
  | _ => cases h

/-- **What a command leaves alone**, and what it makes of the settings. -/
theorem footprint_of_eq_ok (h : (c.handle recover context sender).run.run s = (.ok r, t)) :
    s.AgreesOutside (c.footprint sender) t ∧
      (∃ config, s.config = .ok config ∧ t.config = .ok (c.revise sender config)) ∧
      (c = .acceptOwnership → t[Key.pendingOwner.bytes]? = none) := by
  have hrefl := Store.AgreesOutside.refl (c.footprint sender) s
  cases hp : c.posting? sender with
  | some p =>
    have hhandle := h
    rw [run_handle_of_posting hp] at hhandle
    obtain ⟨config, before, after, hbooked⟩ := Posting.exists_booked hhandle
    obtain ⟨hfootprint, hrevise⟩ := footprint_of_posting hp
    rw [hfootprint, hbooked.store_eq]
    refine ⟨p.agreesOutside_write s after, ⟨config, hbooked.config_eq, ?_⟩, ?_⟩
    · rw [p.config_write, hbooked.config_eq, hrevise]
    · rintro rfl
      cases hp
  | none =>
    cases c with
    | receive notice =>
      obtain ⟨d, hd, -⟩ := Handler.host_bind_eq_ok.mp h
      rw [posting?_receive hd] at hp
      cases hp
    | bridgeIn | transferOut | bridgeOut | withdrawCommission => cases hp
    | setStableCommissionPercent percent =>
      obtain ⟨config, hconfig, -, -, -, rfl⟩ := Administration.setStablePercent_eq_ok.mp h
      exact ⟨hrefl.save List.mem_cons_self _, ⟨config, hconfig, s.config_save _⟩, by rintro ⟨⟩⟩
    | pause | unpause =>
      obtain ⟨config, hconfig, -, -, -, rfl⟩ := Administration.setPaused_eq_ok.mp h
      exact ⟨hrefl.save List.mem_cons_self _, ⟨config, hconfig, s.config_save _⟩, by rintro ⟨⟩⟩
    | proposeOwner newOwner =>
      obtain ⟨config, hconfig, -, -, -, rfl⟩ := Administration.proposeOwner_eq_ok.mp h
      have hagrees : s.AgreesOutside [.pendingOwner] (s.save .pendingOwner newOwner) :=
        hrefl.save List.mem_cons_self newOwner
      have hafter := (hagrees.config_eq (by simp)).trans hconfig
      exact ⟨hagrees, ⟨config, hconfig, hafter⟩, by rintro ⟨⟩⟩
    | cancelOwnershipProposal =>
      obtain ⟨config, _, hconfig, -, -, -, rfl⟩ := Administration.cancelProposal_eq_ok.mp h
      have hagrees : s.AgreesOutside [.pendingOwner] (s.remove .pendingOwner) :=
        hrefl.remove List.mem_cons_self
      have hafter := (hagrees.config_eq (by simp)).trans hconfig
      exact ⟨hagrees, ⟨config, hconfig, hafter⟩, by rintro ⟨⟩⟩
    | acceptOwnership =>
      obtain ⟨config, -, hconfig, -, rfl⟩ := Administration.acceptOwnership_eq_ok.mp h
      let revised : Config := { config with owner := sender }
      have hsaved : s.AgreesOutside [.pendingOwner, .config] (s.save .config revised) :=
        hrefl.save (List.mem_cons_of_mem _ List.mem_cons_self) revised
      have hafter : ((s.save .config revised).remove .pendingOwner).config = .ok revised := by
        rw [Store.config_remove_of_ne _ (by simp), Store.config_save]
      refine ⟨hsaved.remove List.mem_cons_self, ⟨config, hconfig, hafter⟩, fun _ => ?_⟩
      exact Std.ExtTreeMap.getElem?_erase_self

end Command

/-! ### The footprint of a call -/

namespace Call

variable {call : Call}

/-- The keys under which a call may change the store. -/
def footprint : Call → List Key
  | .instantiate .. => [.config, .version]
  | .migrate .. => [.version]
  | .execute _ sender message =>
    match (Schema.command.read message : Except HostError Command) with
    | .ok c => c.footprint sender
    | .error _ => []

/-- A call that succeeds leaves the entries of all other keys alone. -/
theorem agreesOutside_of_eq_ok (h : (call.handle recover).run.run s = (.ok r, t)) :
    s.AgreesOutside call.footprint t := by
  have hrefl := Store.AgreesOutside.refl call.footprint s
  cases call with
  | instantiate context sender message =>
    obtain ⟨m, -, hm⟩ := Handler.host_bind_eq_ok.mp h
    obtain ⟨owner, signer, -, -, -, -, rfl⟩ := Instantiation.handle_eq_ok.mp hm
    have hversion : s.AgreesOutside [.config, .version] (s.save .version Version.current) :=
      hrefl.save (List.mem_cons_of_mem _ List.mem_cons_self) Version.current
    exact hversion.save List.mem_cons_self _
  | migrate context message =>
    obtain ⟨m, -, hm⟩ := Handler.host_bind_eq_ok.mp h
    obtain ⟨-, rfl⟩ := Migration.handle_eq_ok.mp hm
    exact hrefl.save List.mem_cons_self _
  | execute context sender message =>
    obtain ⟨c, hmessage, hc⟩ := Handler.host_bind_eq_ok.mp h
    rw [footprint, hmessage]
    exact (Command.footprint_of_eq_ok hc).1

/-- **A call changes nothing outside its footprint.** Every entry that a successful call changes
stands under a key of its footprint, whatever the store holds elsewhere. Neither setting the bridge
up nor migrating it touches the pools, the nonces or the proposed owner. A command leaves settings
that can be read, with the one field changed that it stands for; accepting the ownership removes the
proposal; and a new percentage leaves the books alone, the reserved commission among them. -/
theorem unchanged_outside_footprint (h : call.perform recover s = (.ok r, t)) :
    s.AgreesOutside call.footprint t ∧
      (∀ key ∉ call.footprint, t[key.bytes]? = s[key.bytes]?) ∧
      match call with
      | .instantiate .. | .migrate .. =>
        s.SameBooks t ∧ t.load? .pendingOwner = s.load? .pendingOwner
      | .execute _ sender message => ∃ (c : Command) (config : Config),
          Schema.command.read message = .ok c ∧ s.config = .ok config ∧
          t.config = .ok (c.revise sender config) ∧
          (c = .acceptOwnership → t[Key.pendingOwner.bytes]? = none) ∧
          (∀ percent, c = .setStableCommissionPercent percent → s.SameBooks t) := by
  have hrun := perform_eq_ok.mp h
  have hagrees := agreesOutside_of_eq_ok hrun
  refine ⟨hagrees, fun key hkey => hagrees.getElem?_eq hkey, ?_⟩
  cases call with
  | instantiate context sender message =>
    exact ⟨hagrees.sameBooks (by simp [footprint]) (by simp [footprint]),
      hagrees.load?_eq (by simp [footprint])⟩
  | migrate context message =>
    exact ⟨hagrees.sameBooks (by simp [footprint]) (by simp [footprint]),
      hagrees.load?_eq (by simp [footprint])⟩
  | execute context sender message =>
    obtain ⟨c, hmessage, hc⟩ := Handler.host_bind_eq_ok.mp hrun
    obtain ⟨hcommand, ⟨config, hconfig, hafter⟩, hremoved⟩ := Command.footprint_of_eq_ok hc
    refine ⟨c, config, hmessage, hconfig, hafter, hremoved, ?_⟩
    rintro percent rfl
    exact hcommand.sameBooks (by simp [Command.footprint]) (by simp [Command.footprint])

/-- A successor takes over, next to a pool that cannot be read and stays as it is. -/
theorem unchanged_outside_footprint_of_acceptance :
    let context : Context := ⟨0, "network", "bridge"⟩
    let config : Config := ⟨"founder", List.replicate 20 1, 400, false⟩
    let strange := (Key.pool "token").bytes
    let unreadable : Store := (∅ : Store).insert strange "no pool"
    let s := (unreadable.save .config config).save .pendingOwner "successor"
    let call := Call.execute context "successor" (writeJson Command.acceptOwnership)
    ∃ r t, call.perform Signature.recovery s = (.ok r, t) ∧ t[strange]? = some "no pool" ∧
      t.config = .ok { config with owner := "successor" } ∧
      t[Key.pendingOwner.bytes]? = none := by
  intro context config strange unreadable s call
  have hstrange : s[strange]? = some "no pool" := by decide +kernel
  have hpending : s.load? .pendingOwner = .ok (some "successor") := Store.load?_save ..
  have hconfig : s.config = .ok config := by
    rw [Store.config_save_of_ne _ (by simp), Store.config_save]
  have haccepted : (Administration.acceptOwnership "successor").run.run s = (.ok _, _) :=
    Administration.acceptOwnership_eq_ok.mpr ⟨config, hpending, hconfig, rfl, rfl⟩
  have hread : Schema.command.read (writeJson Command.acceptOwnership) =
      .ok Command.acceptOwnership :=
    Schema.read_writeJson ..
  have h : call.perform Signature.recovery s = (.ok _, _) :=
    perform_eq_ok.mpr (Handler.host_bind_eq_ok.mpr ⟨_, hread, haccepted⟩)
  obtain ⟨-, hentries, c, config', hc, hconfig', hafter, hremoved, -⟩ :=
    unchanged_outside_footprint h
  obtain rfl : c = .acceptOwnership := Except.ok.inj (hc.symm.trans hread)
  obtain rfl : config' = config := Except.ok.inj (hconfig'.symm.trans hconfig)
  have hkept := hentries (.pool "token") (by simp [call, footprint, Command.footprint])
  exact ⟨_, _, h, hkept.trans hstrange, hafter, hremoved rfl⟩

end Call

end TokenCustody
