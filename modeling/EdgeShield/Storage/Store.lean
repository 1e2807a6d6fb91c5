import Mathlib.Data.List.AList
import EdgeShield.Common.Types

/-!
# The in-memory device store

`crates/storage/src/store.rs`: `MemoryStore` is a concurrent map from MAC addresses
to device records.  A map is an `AList`: its entries stand in some order that no
result depends on, and each key occurs once.  `get` and `upsert` never fail, and so
they return no `Result` here.

`upsert` files a record under its own MAC, and that is the only way in.  The
structure keeps it as a field: a record found under `m` has the MAC `m`.
-/

namespace EdgeShield.Storage

open EdgeShield.Common

structure MemoryStore where
  devices : AList fun _ : MacAddress => Device
  keyed : ∀ m d, devices.lookup m = some d → d.mac = m

namespace MemoryStore

def new : MemoryStore where
  devices := ∅
  keyed := by simp

def get (s : MemoryStore) (mac : MacAddress) : Option Device := s.devices.lookup mac

def upsert (s : MemoryStore) (device : Device) : MemoryStore where
  devices := s.devices.insert device.mac device
  keyed := by
    intro m d h
    by_cases hm : m = device.mac
    · rw [hm, AList.lookup_insert, Option.some.injEq] at h
      rw [← h, hm]
    · rw [AList.lookup_insert_ne hm] at h
      exact s.keyed m d h

/-- All records, sorted by the text of their MAC. -/
def list (s : MemoryStore) : List Device :=
  (s.devices.entries.map Sigma.snd).mergeSort fun a b => a.mac.toString ≤ b.mac.toString

@[simp] theorem get_new (m : MacAddress) : new.get m = none := AList.lookup_empty m

theorem get_upsert (s : MemoryStore) (d : Device) (m : MacAddress) :
    (s.upsert d).get m = if m = d.mac then some d else s.get m := by
  unfold get upsert
  split
  · next h => rw [h, AList.lookup_insert]
  · next h => rw [AList.lookup_insert_ne h]

theorem mac_of_get {s : MemoryStore} {m : MacAddress} {d : Device} (h : s.get m = some d) :
    d.mac = m := s.keyed m d h

theorem mem_list {s : MemoryStore} {d : Device} : d ∈ s.list ↔ s.get d.mac = some d := by
  rw [list, List.mem_mergeSort, List.mem_map, get, ← Option.mem_def, AList.mem_lookup_iff]
  constructor
  · rintro ⟨⟨m, d'⟩, he, rfl⟩
    have hm : d'.mac = m := s.keyed m d' (AList.mem_lookup_iff.mpr he)
    rw [hm]
    exact he
  · intro h
    exact ⟨⟨d.mac, d⟩, h, rfl⟩

end MemoryStore

end EdgeShield.Storage
