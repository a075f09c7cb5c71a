import Mathlib.Data.List.Basic
import Mathlib.Tactic.Common
import TurboNet.Common.Machine

/-!
# Ordered tables

What a sweep does to a table that is an ordered map: it collects the keys of the entries that have
had their time, in the order of the map, and erases them one after another. `lookupAfter` says what
is found in a table after a change that erases keys or inserts an entry, and `owned_run` who owns an
entry at the end of a run of such changes.
-/

namespace Common

variable {κ β : Type*} {cmp : κ → κ → Ordering}

/-- The keys of the entries with this property, in the order of the map. -/
def keysWhere (m : Std.TreeMap κ β cmp) (p : β → Bool) : List κ :=
  (m.toList.filter fun x => p x.2).map Prod.fst

/-- Erase keys one after another. -/
def eraseAll (m : Std.TreeMap κ β cmp) (ks : List κ) : Std.TreeMap κ β cmp :=
  ks.foldl (·.erase ·) m

/-- What is found under `a` when `erased` have been erased and an entry may have been inserted. -/
def lookupAfter [DecidableEq κ] (m : Std.TreeMap κ β cmp) (erased : List κ)
    (inserted : Option (κ × β)) (a : κ) : Option β :=
  match inserted with
  | some (k, b) => if k = a then some b else if a ∈ erased then none else m[a]?
  | none => if a ∈ erased then none else m[a]?

section Lookup

variable [Std.TransCmp cmp]

/-- What is left after the keys have been erased. -/
theorem getElem?_eraseAll [DecidableEq κ] [Std.LawfulEqCmp cmp] (m : Std.TreeMap κ β cmp)
    (ks : List κ) (a : κ) : (eraseAll m ks)[a]? = if a ∈ ks then none else m[a]? := by
  induction ks generalizing m with
  | nil => simp [eraseAll]
  | cons k ks ih =>
    rw [eraseAll, List.foldl_cons, ← eraseAll, ih, Std.TreeMap.getElem?_erase]
    by_cases hk : a = k
    · simp [hk]
    · have hcmp : cmp k a ≠ .eq := fun h => hk (Std.LawfulEqCmp.eq_of_compare h).symm
      simp [hk, hcmp]

/-- What is found after an erasure was there before. -/
theorem getElem?_of_erase {m : Std.TreeMap κ β cmp} {k a : κ} {b : β}
    (h : (m.erase k)[a]? = some b) : m[a]? = some b := by
  rw [Std.TreeMap.getElem?_erase] at h
  split at h
  · exact absurd h (by simp)
  · exact h

/-- An erasure leaves what is found under every other key. -/
theorem getElem?_erase_of_ne [Std.LawfulEqCmp cmp] (m : Std.TreeMap κ β cmp) {k a : κ}
    (h : a ≠ k) : (m.erase k)[a]? = m[a]? := by
  rw [Std.TreeMap.getElem?_erase, if_neg]
  exact fun hcmp => h (Std.LawfulEqCmp.eq_of_compare hcmp).symm

/-- What is found after an insertion is what was inserted, or was there before. -/
theorem eq_or_getElem?_of_insert [Std.LawfulEqCmp cmp] {m : Std.TreeMap κ β cmp} {k a : κ}
    {b c : β} (h : (m.insert k b)[a]? = some c) : k = a ∧ b = c ∨ m[a]? = some c := by
  rw [Std.TreeMap.getElem?_insert] at h
  split at h
  · exact .inl ⟨Std.LawfulEqCmp.eq_of_compare ‹_›, Option.some.inj h⟩
  · exact .inr h

/-- The keys of the entries that the predicate picks. -/
theorem mem_keysWhere [Std.LawfulEqCmp cmp] {m : Std.TreeMap κ β cmp} {p : β → Bool} {a : κ} :
    a ∈ keysWhere m p ↔ ∃ b, m[a]? = some b ∧ p b = true := by
  simp only [keysWhere, List.mem_map, List.mem_filter, Prod.exists, exists_and_right,
    exists_eq_right, Std.TreeMap.mem_toList_iff_getElem?_eq_some]

/-- Each of them occurs once. -/
theorem nodup_keysWhere [Std.LawfulEqCmp cmp] (m : Std.TreeMap κ β cmp) (p : β → Bool) :
    (keysWhere m p).Nodup := by
  rw [keysWhere, List.Nodup, List.pairwise_map]
  refine (Std.TreeMap.distinct_keys_toList.imp fun hne heq => hne ?_).filter _
  rw [heq]
  exact Std.ReflCmp.compare_self

end Lookup

/-- What is found after a change was inserted by it, or was there before and has not been erased. -/
theorem lookupAfter_eq_some [DecidableEq κ] {m : Std.TreeMap κ β cmp} {erased : List κ}
    {inserted : Option (κ × β)} {a : κ} {b : β} (h : lookupAfter m erased inserted a = some b) :
    inserted = some (a, b) ∨ a ∉ erased ∧ m[a]? = some b := by
  have hold (h : (if a ∈ erased then none else m[a]?) = some b) : a ∉ erased ∧ m[a]? = some b := by
    split at h
    · exact absurd h (by simp)
    · rename_i hmem
      exact ⟨hmem, h⟩
  cases inserted with
  | none => exact Or.inr (hold h)
  | some x =>
    simp only [lookupAfter] at h
    split at h
    · rename_i hk
      obtain rfl := Option.some.inj h
      exact Or.inl (by rw [← hk])
    · exact Or.inr (hold h)

/-- What has not been erased is still there, unless it has been replaced. -/
theorem isSome_lookupAfter [DecidableEq κ] {m : Std.TreeMap κ β cmp} {erased : List κ} {a : κ}
    (h : (m[a]?).isSome = true) (ha : a ∉ erased) (inserted : Option (κ × β)) :
    (lookupAfter m erased inserted a).isSome = true := by
  cases inserted with
  | none => simpa [lookupAfter, ha] using h
  | some x =>
    simp only [lookupAfter, if_neg ha]
    split
    · rfl
    · exact h

/-! ## The table after a change -/

section Change

variable [DecidableEq κ] [Std.TransCmp cmp] [Std.LawfulEqCmp cmp]

/-- The lookup after erasing. -/
theorem getElem?_eraseAll_eq (m : Std.TreeMap κ β cmp) (ks : List κ) (a : κ) :
    (eraseAll m ks)[a]? = lookupAfter m ks none a :=
  getElem?_eraseAll m ks a

/-- A key that is not there need not be erased. -/
theorem getElem?_erase_eq (m : Std.TreeMap κ β cmp) (k a : κ) :
    (m.erase k)[a]? = lookupAfter m (if m.contains k then [k] else []) none a := by
  cases hk : m.contains k with
  | true => exact getElem?_eraseAll m [k] a
  | false =>
    rw [show (m.erase k)[a]? = _ from getElem?_eraseAll m [k] a]
    simp only [List.mem_singleton, Bool.false_eq_true, if_false, lookupAfter, List.not_mem_nil]
    split
    · rename_i ha
      rw [ha, Std.TreeMap.getElem?_eq_none (by simp [Std.TreeMap.mem_iff_contains, hk])]
    · rfl

/-- The lookup after clearing. -/
theorem getElem?_empty_eq (m : Std.TreeMap κ β cmp) (a : κ) :
    (∅ : Std.TreeMap κ β cmp)[a]? = lookupAfter m m.keys none a := by
  simp only [lookupAfter, Std.TreeMap.getElem?_emptyc]
  split
  · rfl
  · rename_i ha
    rw [Std.TreeMap.mem_keys] at ha
    rw [Std.TreeMap.getElem?_eq_none ha]

/-- The lookup after an insertion. -/
theorem getElem?_insert_eq (m : Std.TreeMap κ β cmp) (k a : κ) (b : β) :
    (m.insert k b)[a]? = lookupAfter m [] (some (k, b)) a := by
  simp [lookupAfter, Std.TreeMap.getElem?_insert]

end Change

/-! ## A table along a run

Entries belong to somebody. A machine changes the table with every step, by `removes` and
`inserts`. -/

/-- The entry that is found under `a` belongs to `k`. -/
def Owned {ι : Type*} (owner : β → ι) (a : κ) (k : ι) (m : Std.TreeMap κ β cmp) : Prop :=
  ∃ b, m[a]? = some b ∧ owner b = k

instance {ι : Type*} [DecidableEq ι] (owner : β → ι) (a : κ) (k : ι) (m : Std.TreeMap κ β cmp) :
    Decidable (Owned owner a k m) :=
  decidable_of_iff (m[a]?.map owner = some k) Option.map_eq_some_iff

section Owned

variable [DecidableEq κ] {S E ι : Type*} {step : S → E → Option S}
  {inserts : S → E → Option (κ × β)} {owner : β → ι} {a : κ} {k : ι}

/-- An entry is owned afterwards if it was inserted so, or was owned and has not been replaced. -/
theorem owned_lookupAfter {m m' : Std.TreeMap κ β cmp} {erased : List κ}
    {inserted : Option (κ × β)} (hkeep : ¬ (Owned owner a k m ∧ a ∈ erased))
    (hlookup : m'[a]? = lookupAfter m erased inserted a) :
    Owned owner a k m' ↔ (∃ b, inserted = some (a, b) ∧ owner b = k) ∨
      Owned owner a k m ∧ ¬ ∃ b, inserted = some (a, b) ∧ owner b ≠ k := by
  constructor
  · rintro ⟨b, hb, howner⟩
    rw [hlookup] at hb
    rcases lookupAfter_eq_some hb with hinserted | ⟨-, hm⟩
    · exact Or.inl ⟨b, hinserted, howner⟩
    · by_cases hother : ∃ c, inserted = some (a, c) ∧ owner c ≠ k
      · -- what has just been inserted is what is found
        obtain ⟨c, rfl, hne⟩ := hother
        obtain rfl : c = b := by simpa [lookupAfter] using hb
        exact absurd howner hne
      · exact Or.inr ⟨⟨b, hm, howner⟩, hother⟩
  · rintro (⟨b, rfl, howner⟩ | ⟨⟨b, hm, howner⟩, hother⟩)
    · exact ⟨b, by simp [hlookup, lookupAfter], howner⟩
    · have ha : a ∉ erased := fun ha => hkeep ⟨⟨b, hm, howner⟩, ha⟩
      obtain ⟨c, hc⟩ := Option.isSome_iff_exists.mp
        (isSome_lookupAfter (Option.isSome_iff_exists.mpr ⟨b, hm⟩) ha inserted)
      rcases lookupAfter_eq_some hc with hinserted | ⟨-, hm'⟩
      · refine ⟨c, hlookup.trans hc, ?_⟩
        by_contra hne
        exact hother ⟨c, hinserted, hne⟩
      · obtain rfl := Option.some.inj (hm.symm.trans hm')
        exact ⟨b, hlookup.trans hc, howner⟩

/-- In a run of `es` from `s` an entry of `k` is inserted under `a`, and none of anybody else after
that. -/
def InsertedIn (step : S → E → Option S) (inserts : S → E → Option (κ × β)) (owner : β → ι)
    (a : κ) (k : ι) (s : S) (es : List E) : Prop :=
  ∃ pre e post t t', es = pre ++ e :: post ∧ run step s pre = some t ∧
    (∃ b, inserts t e = some (a, b) ∧ owner b = k) ∧ step t e = some t' ∧
    EveryStep step t' post fun t e => ¬ ∃ b, inserts t e = some (a, b) ∧ owner b ≠ k

/-- While nobody takes out the entry of `k`, it is there exactly when it has been inserted and not
been replaced since. -/
theorem owned_run (table : S → Std.TreeMap κ β cmp) (removes : S → E → List κ) {s u : S}
    {es : List E}
    (hlookup : ∀ t e t', step t e = some t' →
      (table t')[a]? = lookupAfter (table t) (removes t e) (inserts t e) a)
    (h0 : ¬ Owned owner a k (table s))
    (hkeep : EveryStep step s es fun t e => ¬ (Owned owner a k (table t) ∧ a ∈ removes t e))
    (hrun : run step s es = some u) :
    Owned owner a k (table u) ↔ InsertedIn step inserts owner a k s es :=
  run_latch (Q := fun t => Owned owner a k (table t)) h0
    (fun t e t' hC ht => owned_lookupAfter hC (hlookup t e t' ht)) hkeep hrun

end Owned

end Common
