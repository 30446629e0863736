import Mathlib.Data.List.Sort
import Mathlib.Data.List.TakeWhile
import Mathlib.Tactic

/-!
# Ordered sets

`std::set<α>`: the elements in ascending order, without repetition. The
invariant is a field, so a set out of order cannot be built. The operations are
those of the C++ container: `insert` and `erase` (whether they found the
element is asked with `∈`), `begin`, and the two halves that `lower_bound`
splits the set into.
-/

namespace Muduo.Lib

structure OrdSet (α : Type) [LinearOrder α] where
  elems : List α
  sorted : elems.Pairwise (· < ·)

namespace OrdSet

variable {α : Type} [LinearOrder α]

instance : Membership α (OrdSet α) := ⟨fun s a => a ∈ s.elems⟩

instance (s : OrdSet α) (a : α) : Decidable (a ∈ s) :=
  inferInstanceAs (Decidable (a ∈ s.elems))

theorem mem_def {s : OrdSet α} {a : α} : a ∈ s ↔ a ∈ s.elems := Iff.rfl

@[ext] theorem ext_elems {s t : OrdSet α} (h : s.elems = t.elems) : s = t := by
  cases s
  cases t
  congr

def empty : OrdSet α := ⟨[], .nil⟩

def size (s : OrdSet α) : Nat := s.elems.length

/-- `*begin()`, if the set is not empty. -/
def first? (s : OrdSet α) : Option α := s.elems.head?

theorem nodup (s : OrdSet α) : s.elems.Nodup := s.sorted.imp fun h => ne_of_lt h

private theorem sorted_orderedInsert {l : List α} (h : l.Pairwise (· < ·)) {a : α}
    (ha : a ∉ l) : (l.orderedInsert (· ≤ ·) a).Pairwise (· < ·) := by
  have hle : (l.orderedInsert (· ≤ ·) a).Pairwise (· ≤ ·) :=
    (h.imp fun h => le_of_lt h).orderedInsert a l
  have hnd : (l.orderedInsert (· ≤ ·) a).Nodup := by
    rw [(List.perm_orderedInsert (· ≤ ·) a l).nodup_iff, List.nodup_cons]
    exact ⟨ha, h.imp fun h => ne_of_lt h⟩
  exact (hle.and hnd).imp fun h => lt_of_le_of_ne h.1 h.2

/-- `insert(a)`: nothing changes if `a` is there. -/
def insert (s : OrdSet α) (a : α) : OrdSet α :=
  if h : a ∈ s.elems then s
  else ⟨s.elems.orderedInsert (· ≤ ·) a, sorted_orderedInsert s.sorted h⟩

/-- `erase(a)`: nothing changes if `a` is not there. -/
def erase (s : OrdSet α) (a : α) : OrdSet α := ⟨s.elems.erase a, s.sorted.erase a⟩

/-- The elements before `lower_bound(a)`. -/
def below (s : OrdSet α) (a : α) : List α := s.elems.takeWhile (· < a)

/-- The set that is left when `[begin(), lower_bound(a))` is erased. -/
def since (s : OrdSet α) (a : α) : OrdSet α :=
  ⟨s.elems.dropWhile (· < a), s.sorted.sublist (List.dropWhile_sublist _)⟩

@[simp] theorem notMem_empty (a : α) : a ∉ (empty : OrdSet α) := List.not_mem_nil

theorem perm_insert {s : OrdSet α} {a : α} (h : a ∉ s) :
    (s.insert a).elems.Perm (a :: s.elems) := by
  have hnot : a ∉ s.elems := h
  unfold insert
  rw [dif_neg hnot]
  exact List.perm_orderedInsert _ a s.elems

@[simp] theorem mem_insert {s : OrdSet α} {a b : α} : b ∈ s.insert a ↔ b = a ∨ b ∈ s := by
  by_cases h : a ∈ s
  · have : s.insert a = s := dif_pos h
    rw [this]
    constructor
    · exact .inr
    · rintro (rfl | hb)
      · exact h
      · exact hb
  · rw [mem_def, (perm_insert h).mem_iff, List.mem_cons]
    exact Iff.rfl

theorem size_insert {s : OrdSet α} {a : α} (h : a ∉ s) : (s.insert a).size = s.size + 1 :=
  (perm_insert h).length_eq

theorem perm_erase {s : OrdSet α} {a : α} (h : a ∈ s) :
    s.elems.Perm (a :: (s.erase a).elems) :=
  List.perm_cons_erase h

@[simp] theorem mem_erase {s : OrdSet α} {a b : α} : b ∈ s.erase a ↔ b ≠ a ∧ b ∈ s :=
  s.nodup.mem_erase_iff

theorem size_erase {s : OrdSet α} {a : α} (h : a ∈ s) : (s.erase a).size + 1 = s.size :=
  (perm_erase h).length_eq.symm

/-- Erasing the first element. -/
theorem elems_erase_head {s : OrdSet α} {a : α} {l : List α} (h : s.elems = a :: l) :
    (s.erase a).elems = l := by
  show s.elems.erase a = l
  rw [h, List.erase_cons_head]

theorem below_append_since (s : OrdSet α) (a : α) : s.below a ++ (s.since a).elems = s.elems :=
  List.takeWhile_append_dropWhile

theorem first?_eq_some {s : OrdSet α} {a : α} (h : s.first? = some a) : a ∈ s :=
  List.mem_of_mem_head? h

/-- `*begin()` is the least element. -/
theorem first?_le {s : OrdSet α} {a b : α} (h : s.first? = some a) (hb : b ∈ s) : a ≤ b := by
  obtain ⟨l, hl⟩ : ∃ l, s.elems = a :: l := List.head?_eq_some_iff.mp h
  have hsorted := s.sorted
  rw [mem_def, hl] at hb
  rw [hl, List.pairwise_cons] at hsorted
  rcases List.mem_cons.mp hb with rfl | hb
  · exact le_rfl
  · exact (hsorted.1 b hb).le

theorem first?_eq_none {s : OrdSet α} (h : s.first? = none) (b : α) : b ∉ s := by
  rw [mem_def, List.head?_eq_none_iff.mp h]
  exact List.not_mem_nil

/-- `*lower_bound(a)` is not below `a`. -/
theorem le_of_first?_since {s : OrdSet α} {a b : α} (h : (s.since a).first? = some b) : a ≤ b := by
  by_contra hlt
  have hhead : (s.elems.dropWhile (· < a)).head? = some b := h
  have hnot := List.head?_dropWhile_not (fun x => decide (x < a)) s.elems
  rw [hhead] at hnot
  simp only [decide_eq_false_iff_not] at hnot
  exact hnot (not_le.mp hlt)

/-- What is left after `lower_bound(a)`. -/
theorem mem_since {s : OrdSet α} {a b : α} : b ∈ s.since a ↔ b ∈ s ∧ a ≤ b := by
  constructor
  · intro hb
    obtain ⟨c, hc⟩ : ∃ c, (s.since a).first? = some c := by
      cases hfirst : (s.since a).first? with
      | none => exact absurd hb (first?_eq_none hfirst b)
      | some c => exact ⟨c, rfl⟩
    exact ⟨(List.dropWhile_sublist _).subset hb, (le_of_first?_since hc).trans (first?_le hc hb)⟩
  · rintro ⟨hb, hab⟩
    rw [mem_def, ← below_append_since s a] at hb
    rcases List.mem_append.mp hb with hb | hb
    · have hlt := List.mem_takeWhile_imp hb
      exact absurd hab (not_le.mpr (by simpa using hlt))
    · exact hb

/-- What is before `lower_bound(a)`. -/
theorem mem_below {s : OrdSet α} {a b : α} : b ∈ s.below a ↔ b ∈ s ∧ b < a := by
  constructor
  · intro hb
    have hlt := List.mem_takeWhile_imp hb
    exact ⟨(List.takeWhile_sublist _).subset hb, by simpa using hlt⟩
  · rintro ⟨hb, hba⟩
    have hsplit := hb
    rw [mem_def, ← below_append_since s a] at hsplit
    refine (List.mem_append.mp hsplit).resolve_right fun hsince => ?_
    exact absurd (mem_since.mp hsince).2 (not_le.mpr hba)

theorem sorted_below (s : OrdSet α) (a : α) : (s.below a).Pairwise (· < ·) :=
  s.sorted.sublist (List.takeWhile_sublist _)

end OrdSet
end Muduo.Lib
