import TokenCustody.Proofs.Digits
import TokenCustody.Store.Basic

/-!
# The layout of the store

Different values stand under different keys (`Key.bytes_injective`): plain names start with a
letter, keys of a namespace with the length of its name, and behind the name stands the token, or
the nonce in eight digits. So a write to one slot is seen in that slot and nowhere else, which is
stated here for slots, and for settings, pools and nonces as they are read.
-/

namespace TokenCustody

namespace Key

theorem bytes_config : bytes .config = [99, 111, 110, 102, 105, 103] := by decide

theorem bytes_pendingOwner :
    bytes .pendingOwner = [112, 101, 110, 100, 105, 110, 103, 95, 111, 119, 110, 101, 114] := by
  decide

theorem bytes_version :
    bytes .version = [99, 111, 110, 116, 114, 97, 99, 116, 95, 105, 110, 102, 111] := by
  decide

theorem pools_eq : pools = [0, 5, 112, 111, 111, 108, 115] := by decide

theorem nonces_eq :
    nonces = [0, 11, 117, 115, 101, 100, 95, 110, 111, 110, 99, 101, 115] := by
  decide

/-- The key of a nonce determines it. -/
theorem nonce_bytes_inj {n m : UInt64} (h : bytes (.nonce n) = bytes (.nonce m)) : n = m := by
  have hdigits := List.append_cancel_left h
  have hn : n.toNat < 256 ^ 8 := n.toNat_lt
  have hm : m.toNat < 256 ^ 8 := m.toNat_lt
  exact UInt64.toNat_inj.mp ((Bytes.bigEndian_inj hn hm).mp hdigits)

/-- **No two values share a key.** -/
theorem bytes_injective : Function.Injective bytes := by
  have hpool (token : String) : bytes (.pool token) = pools ++ Bytes.ofText token := rfl
  have hnonce (n : UInt64) : bytes (.nonce n) = nonces ++ Bytes.bigEndian 8 n.toNat := rfl
  intro k k' h
  cases k <;> cases k'
  case pool.pool token token' =>
    rw [Bytes.ofText_injective (List.append_cancel_left h)]
  case nonce.nonce n m =>
    rw [nonce_bytes_inj h]
  -- two single values, or values of two kinds: the first bytes differ, or the two plain names do
  all_goals
    simp [hpool, hnonce, bytes_config, bytes_pendingOwner, bytes_version, pools_eq,
      nonces_eq] at h ⊢

end Key

namespace Slot

@[simp]
theorem key_config : Slot.config.key = .config := rfl

@[simp]
theorem key_pendingOwner : Slot.pendingOwner.key = .pendingOwner := rfl

@[simp]
theorem key_version : Slot.version.key = .version := rfl

@[simp]
theorem key_pool (token : String) : (Slot.pool token).key = .pool token := rfl

@[simp]
theorem key_nonce (n : UInt64) : (Slot.nonce n).key = .nonce n := rfl

end Slot

namespace Store

variable {α β : Type} [Codec β] (s : Store) {slot : Slot α}

/-! ### The empty store -/

@[simp]
theorem load?_empty {γ : Type} [Codec γ] (slot : Slot γ) : (∅ : Store).load? slot = .ok none := by
  simp [load?]

theorem config_empty : (∅ : Store).config = .error .noConfig := by
  rw [config, load?_empty]
  rfl

theorem pool_empty (token : String) : (∅ : Store).pool token = .ok .empty := by
  rw [pool, load?_empty]
  rfl

theorem isUsed_empty (n : UInt64) : (∅ : Store).isUsed n = .ok false := by
  rw [isUsed, load?_empty]
  rfl

/-! ### A write is seen in its slot -/

@[simp]
theorem pool_save (token : String) (p : Pool) : (s.save (.pool token) p).pool token = .ok p := by
  rw [pool, load?_save]
  rfl

@[simp]
theorem config_save (c : Config) : (s.save .config c).config = .ok c := by
  rw [config, load?_save]
  rfl

@[simp]
theorem isUsed_save (n : UInt64) (b : Bool) : (s.save (.nonce n) b).isUsed n = .ok b := by
  rw [isUsed, load?_save]
  rfl

/-! ### A write is seen nowhere else -/

theorem load?_save_of_key_ne [Codec α] {other : Slot β} (h : slot.key ≠ other.key) (a : α) :
    (s.save slot a).load? other = s.load? other :=
  load?_save_of_ne s (Key.bytes_injective.ne h) a

theorem load?_remove_of_key_ne {other : Slot β} (h : slot.key ≠ other.key) :
    (s.remove slot).load? other = s.load? other :=
  load?_remove_of_ne s (Key.bytes_injective.ne h)

@[simp]
theorem config_save_of_ne [Codec α] (h : slot.key ≠ .config) (a : α) :
    (s.save slot a).config = s.config := by
  rw [config, config, load?_save_of_key_ne s h]

@[simp]
theorem config_remove_of_ne (h : slot.key ≠ .config) : (s.remove slot).config = s.config := by
  rw [config, config, load?_remove_of_key_ne s h]

@[simp]
theorem pool_save_of_ne [Codec α] {token : String} (h : slot.key ≠ .pool token) (a : α) :
    (s.save slot a).pool token = s.pool token := by
  rw [pool, pool, load?_save_of_key_ne s h]

@[simp]
theorem isUsed_save_of_ne [Codec α] {n : UInt64} (h : slot.key ≠ .nonce n) (a : α) :
    (s.save slot a).isUsed n = s.isUsed n := by
  rw [isUsed, isUsed, load?_save_of_key_ne s h]

/-! ### Two writes -/

/-- Writes to different slots commute. -/
theorem save_comm [Codec α] {other : Slot β} (h : slot.key ≠ other.key) (a : α) (b : β) :
    (s.save slot a).save other b = (s.save other b).save slot a := by
  refine Std.ExtTreeMap.ext_getElem? fun k => ?_
  simp only [save, Std.ExtTreeMap.getElem?_insert, Std.compare_eq_iff_eq]
  split_ifs with hother hslot
  · exact absurd (Key.bytes_injective (hslot.trans hother.symm)) h
  · rfl
  · rfl
  · rfl

/-- Of two writes to one slot, the second one counts. -/
theorem save_save [Codec α] (slot : Slot α) (a a' : α) :
    (s.save slot a).save slot a' = s.save slot a' := by
  refine Std.ExtTreeMap.ext_getElem? fun k => ?_
  simp only [save, Std.ExtTreeMap.getElem?_insert]
  split_ifs <;> rfl

end Store

end TokenCustody
