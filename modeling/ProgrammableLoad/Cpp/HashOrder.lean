/-
# `Cpp.HashOrder` — loops over unordered containers

A loop over a `std::unordered_set` or a `std::unordered_map` visits every key
once, in an order that the standard leaves open.
-/
import Mathlib.Data.Finset.Sort

namespace Cpp

variable {α : Type} [DecidableEq α]

/-- The order in which a loop visits the keys of a container. -/
structure HashOrder (α : Type) [DecidableEq α] where
  keys : Finset α → List α
  nodup_keys : ∀ s, (keys s).Nodup
  toFinset_keys : ∀ s, (keys s).toFinset = s

theorem HashOrder.mem_keys (order : HashOrder α) {s : Finset α} {a : α} :
    a ∈ order.keys s ↔ a ∈ s := by
  rw [← List.mem_toFinset, order.toFinset_keys]

/-- The order of the keys themselves. -/
def HashOrder.ascending [LinearOrder α] : HashOrder α where
  keys s := s.sort
  nodup_keys s := s.sort_nodup (· ≤ ·)
  toFinset_keys s := s.sort_toFinset (· ≤ ·)

/-- The order of a list of all keys. -/
def HashOrder.listed (l : List α) (hnodup : l.Nodup) (hmem : ∀ a, a ∈ l) : HashOrder α where
  keys s := l.filter (· ∈ s)
  nodup_keys _ := hnodup.filter _
  toFinset_keys s := by
    ext a
    simp [hmem a]

end Cpp
