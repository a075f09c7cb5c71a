import Mathlib.Algebra.Group.Nat.Defs
import Mathlib.Data.List.Nodup
import Mathlib.Tactic.Common

/-!
# Numbers from a counter

A 32-bit counter starts at 1 and is stepped whenever a number is drawn from it. Some of the numbers
are kept. As long as fewer than 2^32 have been drawn, those that are kept are all different.
-/

namespace Common

/-- After `drawn` draws the counter stands at `next`, and `kept` are some of the numbers drawn. -/
structure Numbers (next : UInt32) (drawn : ℕ) (kept : List UInt32) : Prop where
  next : next = UInt32.ofNat (drawn + 1)
  bound : ∀ n ∈ kept, n.toNat ≤ drawn
  nodup : kept.Nodup

namespace Numbers

variable {next : UInt32} {drawn : ℕ} {kept : List UInt32}

/-- Nothing has been drawn yet. -/
theorem start : Numbers 1 0 [] := ⟨rfl, List.forall_mem_nil _, List.nodup_nil⟩

/-- The counter after one more draw. -/
theorem next_succ (h : Numbers next drawn kept) : next + 1 = UInt32.ofNat (drawn + 1 + 1) := by
  rw [h.next, UInt32.ofNat_add (drawn + 1)]
  rfl

/-- The next number is that of the draw, as long as the counter has not wrapped. -/
theorem toNat_next (h : Numbers next drawn kept) (hlt : drawn + 1 < 2 ^ 32) :
    next.toNat = drawn + 1 := by
  rw [h.next]
  exact UInt32.toNat_ofNat_of_lt' hlt

/-- A number is drawn and not kept. -/
theorem skip (h : Numbers next drawn kept) : Numbers (next + 1) (drawn + 1) kept :=
  ⟨h.next_succ, fun n hn => Nat.le_succ_of_le (h.bound n hn), h.nodup⟩

/-- A number is drawn and kept. -/
theorem draw (h : Numbers next drawn kept) (hlt : drawn + 1 < 2 ^ 32) :
    Numbers (next + 1) (drawn + 1) (kept ++ [next]) := by
  have hnext := h.toNat_next hlt
  refine ⟨h.next_succ, fun n hn => ?_, ?_⟩
  · rcases List.mem_append.mp hn with hn | hn
    · exact Nat.le_succ_of_le (h.bound n hn)
    · obtain rfl := List.mem_singleton.mp hn
      exact Nat.le_of_eq hnext
  · refine List.nodup_append.mpr ⟨h.nodup, List.nodup_singleton next, fun n hn m hm heq => ?_⟩
    obtain rfl := List.mem_singleton.mp hm
    have hle := h.bound n hn
    rw [heq, hnext] at hle
    omega

/-- Equal numbers have been drawn at the same place. -/
theorem unique (h : Numbers next drawn kept) {i j : ℕ} {n : UInt32} (hi : kept[i]? = some n)
    (hj : kept[j]? = some n) : i = j := by
  obtain ⟨hlt, -⟩ := List.getElem?_eq_some_iff.mp hi
  exact (List.getElem?_inj hlt h.nodup).mp (hi.trans hj.symm)

end Numbers

end Common
