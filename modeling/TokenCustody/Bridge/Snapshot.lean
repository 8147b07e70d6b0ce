import TokenCustody.Store.Basic

/-!
# Snapshots

A store as its reader sees it: the values of all slots, or the reason why a value is not to be read.
The pools and the nonces are the entries of their namespaces, and one that has no proper key stands
in the list with its reason too. All other entries are passed over.
-/

namespace TokenCustody

/-- The values of all slots. Pools and nonces stand in the order of their keys. -/
structure Snapshot where
  config : Except HostError (Option Config)
  pendingOwner : Except HostError (Option String)
  version : Except HostError (Option Version)
  pools : List (Except HostError (String × Pool))
  nonces : List (Except HostError (UInt64 × Bool))

namespace Store

/-- The pools of a store. An entry is refused for its key first, and then for its value. -/
def pools (s : Store) : List (Except HostError (String × Pool)) :=
  s.toList.filterMap fun (key, text) =>
    (Key.behind? Key.pools key).map fun rest => do
      let token ← (Utf8.decode rest).mapError .poolKey
      return (token, ← Schema.pool.read text)

/-- The nonces of a store, with their marks. An entry is refused for its key first, and then for
its value. -/
def nonces (s : Store) : List (Except HostError (UInt64 × Bool)) :=
  s.toList.filterMap fun (key, text) =>
    (Key.behind? Key.nonces key).map fun rest =>
      if rest.length = 8 then
        (Schema.mark.read text).map (UInt64.ofNat (Bytes.toNat rest), ·)
      else
        .error .nonceKey

/-- The values of all slots of a store. -/
def snapshot (s : Store) : Snapshot where
  config := s.load? .config
  pendingOwner := s.load? .pendingOwner
  version := s.load? .version
  pools := s.pools
  nonces := s.nonces

end Store

end TokenCustody
