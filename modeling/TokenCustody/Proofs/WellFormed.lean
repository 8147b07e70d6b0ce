import TokenCustody.Proofs.Layout
import TokenCustody.Proofs.Steps

/-!
# Well-formed stores

In a well-formed store every entry stands under the key of some value and is the document of a
proper one: settings with a true signer and an admissible percentage, an account with an address,
the version of this contract, a solvent pool of a token with an address, a mark that is set. The
bridge only ever writes such entries; that every run keeps to well-formed stores is shown in
`TokenCustody.Proofs.Safety`.

Here is what well-formedness gives to a reader. Every slot can be read, and what is read is proper
(`Store.WellFormed.config` and its siblings). And here is how it is kept: by saving a proper value,
and by removing any.
-/

namespace TokenCustody

/-- Settings that the bridge may come to have: the signer is an address, not the zero address, and
the stable percentage is within bounds. -/
structure Config.Sound (c : Config) : Prop where
  length_signer : c.signer.length = 20
  signer_ne_zero : ∃ b ∈ c.signer, b ≠ 0
  stablePercent_le : c.stablePercent ≤ maxStablePercent

/-- A text is the document of a proper value for a key. -/
def Key.Holds (text : String) : Key → Prop
  | .config => ∃ c : Config, readJson? text = some c ∧ c.Sound
  | .pendingOwner => ∃ owner : String, readJson? text = some owner ∧ Address.IsValid owner
  | .version => readJson? text = some Version.current
  | .pool token => Address.IsValid token ∧ ∃ p : Pool, readJson? text = some p ∧ p.Solvent
  | .nonce _ => readJson? text = some true

/-- Every entry is the document of a proper value, under the key of that value. -/
def Store.WellFormed (s : Store) : Prop :=
  ∀ b text, s[b]? = some text → ∃ key : Key, key.bytes = b ∧ key.Holds text

namespace Config

variable {c : Config}

/-- The signer of sound settings is an address. -/
theorem Sound.signerIdentity (h : c.Sound) : ∃ signer, c.signerIdentity = .ok signer := by
  refine ⟨⟨c.signer.toArray, by simpa using h.length_signer⟩, ?_⟩
  rw [signerIdentity_eq_ok, signerAddress?, Bytes.toVector?_eq_some]
  rfl

/-- Sound settings charge no deposit more than a hundred percent. -/
theorem Sound.le_hundredPercent (h : c.Sound) : c.stablePercent ≤ Commission.hundredPercent :=
  UInt64.le_trans h.stablePercent_le (by decide)

end Config

namespace EthAddress

/-- A text denotes no address of all zeros. -/
theorem exists_ne_zero_of_parse {text : String} {a : EthAddress} (h : parse text = .ok a) :
    ∃ b ∈ a.toList, b ≠ 0 := by
  have hne : a ≠ zero := by
    simp only [parse] at h
    split_ifs at h
    split at h
    · cases h
    · split_ifs at h with hzero
      cases h
      exact hzero
  by_contra hall
  push Not at hall
  refine hne (Vector.toList_inj.mp ?_)
  rw [zero, Vector.toList_replicate, List.eq_replicate_iff]
  exact ⟨a.length_toList, hall⟩

end EthAddress

namespace Store.WellFormed

variable {α : Type} {s : Store}

theorem empty : WellFormed ∅ := by
  intro b text h
  simp at h

/-! ### Writing -/

theorem save [Codec α] {slot : Slot α} {a : α} (h : s.WellFormed)
    (ha : slot.key.Holds (writeJson a)) : (s.save slot a).WellFormed := by
  intro b text hb
  rw [Store.save, Std.ExtTreeMap.getElem?_insert] at hb
  -- the entry is the new one, or was there before
  split_ifs at hb with hkey
  · exact ⟨slot.key, Std.compare_eq_iff_eq.mp hkey, Option.some.inj hb ▸ ha⟩
  · exact h b text hb

theorem remove (h : s.WellFormed) (slot : Slot α) : (s.remove slot).WellFormed := by
  intro b text hb
  rw [Store.remove, Std.ExtTreeMap.getElem?_erase] at hb
  split_ifs at hb
  exact h b text hb

/-! ### Reading -/

/-- A slot is empty, or its text is the document of a proper value. -/
theorem load?_cases [Codec α] (h : s.WellFormed) (slot : Slot α) :
    s.load? slot = .ok none ∨
      ∃ text, slot.key.Holds text ∧ s.load? slot = (slot.schema.read text).map some := by
  rw [load?]
  cases htext : s[slot.key.bytes]? with
  | none => exact .inl rfl
  | some text =>
    -- the key that the entry is proper for is the key of the slot
    obtain ⟨key, hkey, hholds⟩ := h _ _ htext
    rw [← Key.bytes_injective hkey]
    exact .inr ⟨text, hholds, rfl⟩

theorem config (h : s.WellFormed) :
    s.config = .error .noConfig ∨ ∃ c, s.config = .ok c ∧ c.Sound := by
  rcases h.load?_cases .config with hnone | ⟨text, ⟨c, hc, hsound⟩, hload⟩
  · exact .inl (by rw [Store.config, hnone]; rfl)
  · exact .inr ⟨c, by rw [Store.config, hload, Schema.read, hc]; rfl, hsound⟩

theorem sound_of_config (h : s.WellFormed) {c : Config} (hc : s.config = .ok c) : c.Sound := by
  rcases h.config with hnone | ⟨c', hc', hsound⟩
  · rw [hnone] at hc
    cases hc
  · rw [hc'] at hc
    cases hc
    exact hsound

theorem pool (h : s.WellFormed) (token : String) : ∃ p, s.pool token = .ok p ∧ p.Solvent := by
  rcases h.load?_cases (.pool token) with hnone | ⟨text, ⟨-, p, hp, hsolvent⟩, hload⟩
  · exact ⟨.empty, by rw [Store.pool, hnone]; rfl, Pool.solvent_empty⟩
  · exact ⟨p, by rw [Store.pool, hload, Schema.read, hp]; rfl, hsolvent⟩

theorem isUsed (h : s.WellFormed) (n : UInt64) : ∃ b, s.isUsed n = .ok b := by
  rcases h.load?_cases (.nonce n) with hnone | ⟨text, hmark, hload⟩
  · exact ⟨false, by rw [Store.isUsed, hnone]; rfl⟩
  · have hmark : readJson? text = some true := hmark
    exact ⟨true, by rw [Store.isUsed, hload, Schema.read, hmark]; rfl⟩

theorem load?_pendingOwner (h : s.WellFormed) :
    ∃ owner, s.load? .pendingOwner = .ok owner := by
  rcases h.load?_cases .pendingOwner with hnone | ⟨text, ⟨owner, howner, -⟩, hload⟩
  · exact ⟨none, hnone⟩
  · exact ⟨some owner, by rw [hload, Schema.read, howner]; rfl⟩

end Store.WellFormed

end TokenCustody
