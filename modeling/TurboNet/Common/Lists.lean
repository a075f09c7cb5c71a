import Mathlib.Data.List.Basic
import Mathlib.Data.List.Nodup
import Mathlib.Data.List.Perm.Basic
import Mathlib.Tactic.Common

/-!
# Lists as histories and tables

A history is a list that only grows, so what is found in it at some place stays there. A list may
also serve as a table: entries are replaced at their place, or found and erased by a test.
-/

namespace Common

variable {α : Type*} {l l' : List α} {i k : ℕ} {a b : α}

/-- A longer list has the item at the same place. -/
theorem getElem?_of_prefix (h : l <+: l') (hi : l[i]? = some a) : l'[i]? = some a := by
  obtain ⟨hlt, heq⟩ := List.getElem?_eq_some_iff.mp hi
  rw [List.prefix_iff_getElem?.mp h i hlt, heq]

/-- So has the list with more at the end. -/
theorem getElem?_append_of_some (h : l[i]? = some a) (l' : List α) : (l ++ l')[i]? = some a :=
  getElem?_of_prefix (List.prefix_append l l') h

/-- What is said of an element stays true when elements are replaced by such that it is true of. -/
theorem exists_getElem?_set {R : α → Prop} (hk : l[k]? = some a) (ha : R a) (hb : i = k → R b) :
    ∃ c, (l.set i b)[k]? = some c ∧ R c := by
  by_cases hik : i = k
  · exact ⟨b, by rw [hik, List.getElem?_set_self (List.getElem?_eq_some_iff.mp hk).1], hb hik⟩
  · exact ⟨a, by rw [List.getElem?_set_ne hik, hk], ha⟩

/-- Changing the element at a place is replacing it. -/
theorem modify_eq_set_of_some (h : l[i]? = some a) (f : α → α) : l.modify i f = l.set i (f a) := by
  obtain ⟨hlt, -⟩ := List.getElem?_eq_some_iff.mp h
  refine List.ext_getElem? fun j => ?_
  by_cases hj : i = j
  · subst hj
    rw [List.getElem?_modify_eq, List.getElem?_set_self hlt, h]
    rfl
  · rw [List.getElem?_modify_ne _ _ hj, List.getElem?_set_ne hj]

/-- Changing the element at a place commutes with a map, when the two changes do. -/
theorem map_modify {β : Type*} {f : α → α} {f' : β → β} {g : α → β} (h : ∀ x, g (f x) = f' (g x))
    (l : List α) (j : ℕ) : (l.modify j f).map g = (l.map g).modify j f' := by
  refine List.ext_getElem? fun i => ?_
  rw [List.getElem?_map, List.getElem?_modify, List.getElem?_modify, List.getElem?_map]
  cases l[i]? with
  | none => rfl
  | some x => by_cases hij : j = i <;> simp [hij, h]

/-- Blocks of the same lengths have the same concatenation exactly when they are the same. -/
theorem flatMap_eq_flatMap_iff {β : Type*} {f g : α → List β}
    (h : ∀ x ∈ l, (f x).length = (g x).length) :
    l.flatMap f = l.flatMap g ↔ ∀ x ∈ l, f x = g x := by
  induction l with
  | nil => simp
  | cons x l ih =>
    obtain ⟨hx, hl⟩ := List.forall_mem_cons.mp h
    rw [List.flatMap_cons, List.flatMap_cons, List.append_eq_append_iff_of_size_eq_left hx, ih hl,
      List.forall_mem_cons]

/-- The last thing that a history says of some kind: it is said at some place and nothing of the
kind after it. -/
theorem getLast?_filterMap_eq_some_iff {β : Type*} {f : α → Option β} {v : β} :
    (l.filterMap f).getLast? = some v ↔
      ∃ pre x post, l = pre ++ x :: post ∧ f x = some v ∧ ∀ y ∈ post, f y = none := by
  constructor
  · intro h
    induction l with
    | nil => simp at h
    | cons x l ih =>
      -- if nothing further on has a value, that of the head is the last
      by_cases hlast : l.filterMap f = []
      · cases hx : f x with
        | none =>
          rw [List.filterMap_cons_none hx, hlast] at h
          simp at h
        | some w =>
          rw [List.filterMap_cons_some hx, hlast] at h
          obtain rfl : w = v := by simpa using h
          exact ⟨[], x, l, rfl, hx, List.filterMap_eq_nil_iff.mp hlast⟩
      · have htail : (l.filterMap f).getLast? = some v := by
          cases hx : f x with
          | none => rwa [List.filterMap_cons_none hx] at h
          | some w =>
            rw [List.filterMap_cons_some hx] at h
            rwa [← List.getLast?_cons_of_ne_nil hlast]
        obtain ⟨pre, y, post, rfl, hy, hpost⟩ := ih htail
        exact ⟨x :: pre, y, post, rfl, hy, hpost⟩
  · rintro ⟨pre, x, post, rfl, hx, hpost⟩
    rw [List.filterMap_append, List.filterMap_cons_some hx, List.filterMap_eq_nil_iff.mpr hpost]
    simp

/-- Two places of a history: the second thing is found after the first, or the other way round. -/
theorem mem_of_two_places {pre post pre' post' : List α} (hne : a ≠ b)
    (h : pre ++ a :: post = pre' ++ b :: post') : b ∈ post ∨ a ∈ post' := by
  obtain ⟨as, -, hsplit⟩ | ⟨bs, -, hsplit⟩ := List.append_eq_append_iff.mp h
  · match as with
    | [] => exact absurd (List.cons.inj hsplit).1 hne
    | _ :: as =>
      rw [(List.cons.inj hsplit).2]
      exact .inl (by simp)
  · match bs with
    | [] => exact absurd (List.cons.inj hsplit).1 hne.symm
    | _ :: bs =>
      rw [(List.cons.inj hsplit).2]
      exact .inr (by simp)

/-- Of pairs with different second components just one has a given one. -/
theorem filter_map_pair {β : Type*} [DecidableEq α] (hl : l.Nodup) (ha : a ∈ l) (c : β) :
    (l.map (c, ·)).filter (fun x => x.2 = a) = [(c, a)] := by
  have hone : (l.filter fun y => y = a) = [a] := by
    rw [List.filter_eq, List.count_eq_one_of_mem hl ha, List.replicate_one]
  rw [List.filter_map]
  exact congrArg (List.map (c, ·)) hone

/-- What no step of a fold changes is as it was. -/
theorem foldl_keeps {β γ : Type*} {f : β → α → β} {g : β → γ} (h : ∀ b a, g (f b a) = g b) (c : β)
    (l : List α) : g (l.foldl f c) = g c := by
  induction l generalizing c with
  | nil => rfl
  | cons a l ih => rw [List.foldl_cons, ih, h]

/-- At most one element has an image that counts. -/
theorem countP_filterMap_of_nodup {β : Type*} [DecidableEq α] {f : α → Option β} {p : β → Bool}
    (hnodup : l.Nodup) (honly : ∀ b ∈ l, (f b).any p = true → b = a) :
    (l.filterMap f).countP p = if a ∈ l ∧ (f a).any p = true then 1 else 0 := by
  induction l with
  | nil => simp
  | cons b l ih =>
    obtain ⟨hb, hnodup⟩ := List.nodup_cons.mp hnodup
    obtain ⟨honlyb, honly⟩ := List.forall_mem_cons.mp honly
    have hrest := ih hnodup honly
    have hcons : ((b :: l).filterMap f).countP p =
        (l.filterMap f).countP p + if (f b).any p then 1 else 0 := by
      rw [List.filterMap_cons]
      cases f b with
      | none => simp
      | some c => simp [List.countP_cons]
    rw [hcons, hrest]
    by_cases hcount : (f b).any p = true
    · obtain rfl := honlyb hcount
      simp [hb, hcount]
    · have hne : a = b → ¬ (f a).any p = true := fun h => h ▸ hcount
      by_cases hab : a = b
      · simp [hab, hb, hcount]
      · simp [hab, hcount]

/-- Replacing an element changes a count by what the two elements count for. -/
theorem countP_set_add (p : α → Bool) (hi : l[i]? = some a) :
    (l.set i b).countP p + (if p a then 1 else 0) = l.countP p + (if p b then 1 else 0) := by
  induction l generalizing i with
  | nil => exact absurd hi (by simp)
  | cons c l ih =>
    cases i with
    | zero =>
      obtain rfl : c = a := by simpa using hi
      simp only [List.set_cons_zero, List.countP_cons]
      omega
    | succ i =>
      have hrest := ih (by simpa using hi)
      simp only [List.set_cons_succ, List.countP_cons]
      omega

/-- Taking an element out lowers a count by what the element counts for. -/
theorem countP_eraseIdx_add (p : α → Bool) (hi : l[i]? = some a) :
    (l.eraseIdx i).countP p + (if p a then 1 else 0) = l.countP p := by
  obtain ⟨hlt, rfl⟩ := List.getElem?_eq_some_iff.mp hi
  rw [← (List.getElem_cons_eraseIdx_perm hlt).countP_eq, List.countP_cons]

/-- Of a kind that is counted once there is one at most. -/
theorem eq_of_countP_le_one {p : α → Bool} (hcount : l.countP p ≤ 1) (hi : l[i]? = some a)
    (hk : l[k]? = some b) (ha : p a = true) (hb : p b = true) : i = k := by
  induction l generalizing i k with
  | nil => exact absurd hi (by simp)
  | cons c l ih =>
    rw [List.countP_cons] at hcount
    -- if one of the two is the head, the other cannot be in the tail
    have htail {j : ℕ} {d : α} (hc : p c = true) (hj : l[j]? = some d) (hd : p d = true) :
        False := by
      have hpos := List.countP_pos_iff.mpr ⟨d, List.mem_of_getElem? hj, hd⟩
      rw [if_pos hc] at hcount
      omega
    cases i with
    | zero =>
      obtain rfl : c = a := by simpa using hi
      cases k with
      | zero => rfl
      | succ k => exact (htail ha (by simpa using hk) hb).elim
    | succ i =>
      cases k with
      | zero =>
        obtain rfl : c = b := by simpa using hk
        exact (htail hb (by simpa using hi) ha).elim
      | succ k =>
        have heq : i = k := ih (by omega) (by simpa using hi) (by simpa using hk)
        rw [heq]

/-- Finding an entry and erasing it takes it out of the list. -/
theorem perm_cons_eraseP {q : α → Bool} (h : l.find? q = some a) : l.Perm (a :: l.eraseP q) := by
  induction l with
  | nil => exact absurd h (by simp)
  | cons b l ih =>
    cases hb : q b with
    | true =>
      obtain rfl : b = a := by simpa [hb] using h
      simp [hb]
    | false =>
      rw [List.find?_cons_of_neg (by simp [hb])] at h
      rw [List.eraseP_cons_of_neg (by simp [hb])]
      exact ((ih h).cons b).trans (List.Perm.swap a b _)

/-- The only item that passes the test is found. -/
theorem find?_eq_of_unique {q : α → Bool} (ha : a ∈ l) (hq : q a = true)
    (hunique : ∀ b ∈ l, q b = true → b = a) : l.find? q = some a := by
  rcases hfind : l.find? q with _ | b
  · exact absurd hq (List.find?_eq_none.mp hfind a ha)
  · rw [hunique b (List.mem_of_find?_eq_some hfind) (List.find?_some hfind)]

end Common
