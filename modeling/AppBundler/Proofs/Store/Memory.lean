import Mathlib.Data.List.Basic
import AppBundler.Store.Blobs
import AppBundler.Store.Versions
/-!
# Stores in memory

There is one record for each app and hash, and every content stands under its own digest. Both are kept by all that
can be done with the stores. Content stays until it is evicted.
-/

namespace AppBundler

/-- What stands under one key does not count when another one is looked for. -/
theorem find?_filter_ne {α β : Type} [DecidableEq β] (key : α → β) {one other : β} (h : other ≠ one) (l : List α) :
    (l.filter fun a => key a ≠ one).find? (fun a => key a = other) = l.find? fun a => key a = other := by
  rw [List.find?_filter]
  congr 1
  funext a
  by_cases ha : key a = other
  · simp [ha, h]
  · simp [ha]

namespace VersionMemory

variable {s : VersionMemory} {r : VersionRecord} {appId hash : String}

/-- There is one record for each app and hash. -/
def IsKeyed (s : VersionMemory) : Prop := (s.records.map fun r => (r.appId, r.hash)).Nodup

/-- A record that was found belongs to the app and the hash. -/
theorem mem_of_find? (h : s.find? appId hash = some r) : r ∈ s.records ∧ r.appId = appId ∧ r.hash = hash := by
  refine ⟨List.mem_of_find?_eq_some h, ?_⟩
  simpa [VersionRecord.isFor] using List.find?_some h

/-- A record that was put is found. -/
theorem find?_upsert (s : VersionMemory) (r : VersionRecord) : (s.upsert r).find? r.appId r.hash = some r := by
  simp [upsert, find?, VersionRecord.isFor]

/-- What is found after putting a record is that record or what was found before. -/
theorem mem_of_mem_upsert {other : VersionRecord} (h : other ∈ (s.upsert r).records) : other = r ∨ other ∈ s.records :=
  (List.mem_cons.mp h).imp_right List.mem_of_mem_filter

theorem IsKeyed.upsert (h : s.IsKeyed) (r : VersionRecord) : (s.upsert r).IsKeyed := by
  refine List.nodup_cons.mpr ⟨fun hmem => ?_, h.sublist (List.filter_sublist.map _)⟩
  obtain ⟨other, hother, heq⟩ := List.mem_map.mp hmem
  obtain ⟨hid, hhash⟩ := Prod.mk.inj heq
  simp [VersionRecord.isFor, hid, hhash] at hother

end VersionMemory

namespace BlobMemory

variable {s : BlobMemory} {d : ContentDigest}

/-- Every content stands under its own digest. -/
def IsAddressed (s : BlobMemory) : Prop := ∀ b ∈ s.blobs, b.1 = ContentDigest.ofBytes b.2

theorem IsAddressed.put (h : s.IsAddressed) (bytes : List UInt8) : (s.put bytes).2.IsAddressed := by
  intro b hb
  rcases List.mem_cons.mp hb with rfl | hb
  · rfl
  · exact h b (List.mem_of_mem_filter hb)

theorem IsAddressed.evict (h : s.IsAddressed) (d : ContentDigest) : (s.evict d).IsAddressed :=
  fun b hb => h b (List.mem_of_mem_filter hb)

/-- There is content under a digest when something stands there. -/
theorem contains_iff : s.contains d = true ↔ ∃ b ∈ s.blobs, b.1 = d := by
  simp [contains, find?]

/-- Content that was put is there. -/
theorem contains_put_self (s : BlobMemory) (bytes : List UInt8) :
    (s.put bytes).2.contains (ContentDigest.ofBytes bytes) = true :=
  contains_iff.mpr ⟨_, List.mem_cons_self, rfl⟩

/-- Content that was put is read back. -/
theorem get_put_self (s : BlobMemory) (bytes : List UInt8) :
    (s.put bytes).2.get (ContentDigest.ofBytes bytes) = .ok bytes := by
  simp [put, get, find?]

/-- Putting content leaves what stands under other digests. -/
theorem find?_put {bytes : List UInt8} :
    (s.put bytes).2.find? d = if d = .ofBytes bytes then some bytes else s.find? d := by
  by_cases hd : d = .ofBytes bytes
  · simp [put, find?, hd]
  · rw [if_neg hd, find?, put, List.find?_cons_of_neg (by simpa using Ne.symm hd), find?_filter_ne Prod.fst hd, find?]

/-- What is there stays when other content is put. -/
theorem contains_put (h : s.contains d = true) (bytes : List UInt8) : (s.put bytes).2.contains d = true := by
  by_cases hd : ContentDigest.ofBytes bytes = d
  · exact hd ▸ contains_put_self s bytes
  · obtain ⟨b, hb, rfl⟩ := contains_iff.mp h
    exact contains_iff.mpr ⟨b, List.mem_cons_of_mem _ (by simpa [hb] using Ne.symm hd), rfl⟩

/-- What is there stays when other content is evicted. -/
theorem contains_evict {other : ContentDigest} (h : s.contains d = true) (hother : other ≠ d) :
    (s.evict other).contains d = true := by
  obtain ⟨b, hb, rfl⟩ := contains_iff.mp h
  exact contains_iff.mpr ⟨b, by simpa [evict, hb] using Ne.symm hother, rfl⟩

/-- What is there can be read. -/
theorem exists_get (h : s.contains d = true) : ∃ bytes, s.get d = .ok bytes ∧ (d, bytes) ∈ s.blobs := by
  obtain ⟨bytes, hfind⟩ := Option.isSome_iff_exists.mp h
  obtain ⟨b, hb, rfl⟩ := Option.map_eq_some_iff.mp hfind
  obtain rfl : b.1 = d := by simpa using List.find?_some hb
  exact ⟨b.2, by rw [get, hfind], List.mem_of_find?_eq_some hb⟩

end BlobMemory

end AppBundler
