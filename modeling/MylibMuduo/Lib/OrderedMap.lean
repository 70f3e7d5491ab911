import Mathlib.Data.List.Pairwise
import Mathlib.Data.List.Perm.Basic
import Mathlib.Order.Lattice
import Mathlib.Tactic.Common

/-!
# Ordered maps

A finite map as a list of entries with strictly increasing keys, which is what iterating over
a balanced search tree shows. Lookup, assignment, erasure, the first entry and the entries up
to a bound are described by membership and by permutations of the entries.
-/

namespace MylibMuduo

structure OrderedMap (K V : Type) [LinearOrder K] where
  entries : List (K × V)
  sorted : entries.Pairwise fun a b => a.1 < b.1

namespace OrderedMap

variable {K V : Type} [LinearOrder K]

/-- Puts `(k, v)` at its place, instead of an entry with the key `k`. -/
def insertEntry (k : K) (v : V) : List (K × V) → List (K × V)
  | [] => [(k, v)]
  | e :: es =>
    if k < e.1 then (k, v) :: e :: es
    else if k = e.1 then (k, v) :: es
    else e :: insertEntry k v es

lemma mem_insertEntry {k : K} {v : V} {es : List (K × V)} (h : es.Pairwise fun a b => a.1 < b.1)
    (x : K × V) : x ∈ insertEntry k v es ↔ x = (k, v) ∨ (x ∈ es ∧ x.1 ≠ k) := by
  induction es with
  | nil => simp [insertEntry]
  | cons e es ih =>
    obtain ⟨hhead, htail⟩ := List.pairwise_cons.mp h
    rw [insertEntry]
    split
    · next hlt =>
      have hne : ∀ y ∈ e :: es, y.1 ≠ k := by
        intro y hy
        rcases List.mem_cons.mp hy with rfl | hy
        · exact hlt.ne'
        · exact (hlt.trans (hhead y hy)).ne'
      rw [List.mem_cons]
      constructor
      · rintro (hx | hx)
        · exact Or.inl hx
        · exact Or.inr ⟨hx, hne x hx⟩
      · rintro (hx | hx)
        · exact Or.inl hx
        · exact Or.inr hx.1
    · split
      · next hlt heq =>
        have hne : ∀ y ∈ es, y.1 ≠ k := by
          intro y hy
          rw [heq]
          exact (hhead y hy).ne'
        rw [List.mem_cons, List.mem_cons]
        constructor
        · rintro (hx | hx)
          · exact Or.inl hx
          · exact Or.inr ⟨Or.inr hx, hne x hx⟩
        · rintro (hx | ⟨hx | hx, hk⟩)
          · exact Or.inl hx
          · exact absurd (hx ▸ heq.symm) hk
          · exact Or.inr hx
      · next hlt hne =>
        rw [List.mem_cons, ih htail, List.mem_cons]
        constructor
        · rintro (hx | hx | hx)
          · exact Or.inr ⟨Or.inl hx, hx ▸ Ne.symm hne⟩
          · exact Or.inl hx
          · exact Or.inr ⟨Or.inr hx.1, hx.2⟩
        · rintro (hx | ⟨hx | hx, hk⟩)
          · exact Or.inr (Or.inl hx)
          · exact Or.inl hx
          · exact Or.inr (Or.inr ⟨hx, hk⟩)

lemma sorted_insertEntry (k : K) (v : V) {es : List (K × V)} (h : es.Pairwise fun a b => a.1 < b.1) :
    (insertEntry k v es).Pairwise fun a b => a.1 < b.1 := by
  induction es with
  | nil => exact List.pairwise_singleton _ _
  | cons e es ih =>
    obtain ⟨hhead, htail⟩ := List.pairwise_cons.mp h
    rw [insertEntry]
    split
    · next hlt =>
      refine List.pairwise_cons.mpr ⟨?_, h⟩
      intro y hy
      rcases List.mem_cons.mp hy with rfl | hy
      · exact hlt
      · exact hlt.trans (hhead y hy)
    · split
      · next heq =>
        refine List.pairwise_cons.mpr ⟨?_, htail⟩
        intro y hy
        change k < y.1
        rw [heq]
        exact hhead y hy
      · next hlt hne =>
        refine List.pairwise_cons.mpr ⟨?_, ih htail⟩
        intro y hy
        rcases (mem_insertEntry htail y).mp hy with rfl | ⟨hy, -⟩
        · exact lt_of_le_of_ne (not_lt.mp hlt) (Ne.symm hne)
        · exact hhead y hy

lemma perm_insertEntry {k : K} {v : V} {es : List (K × V)} (h : ∀ e ∈ es, e.1 ≠ k) :
    (insertEntry k v es).Perm ((k, v) :: es) := by
  induction es with
  | nil => exact List.Perm.refl _
  | cons e es ih =>
    rw [insertEntry]
    split
    · exact List.Perm.refl _
    · rw [if_neg (Ne.symm (h e List.mem_cons_self))]
      exact ((ih (fun y hy => h y (List.mem_cons_of_mem _ hy))).cons e).trans (List.Perm.swap _ _ _)

lemma perm_filter_key {k : K} {v : V} {es : List (K × V)} (hsorted : es.Pairwise fun a b => a.1 < b.1)
    (h : (k, v) ∈ es) : es.Perm ((k, v) :: es.filter fun e => e.1 ≠ k) := by
  induction es with
  | nil => simp at h
  | cons e es ih =>
    obtain ⟨hhead, htail⟩ := List.pairwise_cons.mp hsorted
    rcases List.mem_cons.mp h with heq | hmem
    · have hrest : es.filter (fun e => decide (e.1 ≠ k)) = es := by
        rw [List.filter_eq_self]
        intro y hy
        have hlt := hhead y hy
        rw [← heq] at hlt
        exact decide_eq_true hlt.ne'
      rw [List.filter_cons_of_neg (by rw [← heq]; simp), hrest, ← heq]
    · have hne : e.1 ≠ k := (hhead _ hmem).ne
      rw [List.filter_cons_of_pos (by simpa using hne)]
      exact ((ih htail hmem).cons e).trans (List.Perm.swap _ _ _)

lemma mem_takeWhile_key {k : K} {x : K × V} {es : List (K × V)}
    (hsorted : es.Pairwise fun a b => a.1 < b.1) :
    x ∈ es.takeWhile (fun e => e.1 ≤ k) ↔ x ∈ es ∧ x.1 ≤ k := by
  induction es with
  | nil => simp
  | cons e es ih =>
    obtain ⟨hhead, htail⟩ := List.pairwise_cons.mp hsorted
    by_cases he : e.1 ≤ k
    · rw [List.takeWhile_cons_of_pos (by simpa using he), List.mem_cons, List.mem_cons, ih htail]
      constructor
      · rintro (hx | hx)
        · exact ⟨Or.inl hx, hx ▸ he⟩
        · exact ⟨Or.inr hx.1, hx.2⟩
      · rintro ⟨hx | hx, hk⟩
        · exact Or.inl hx
        · exact Or.inr ⟨hx, hk⟩
    · rw [List.takeWhile_cons_of_neg (by simpa using he)]
      simp only [List.not_mem_nil, false_iff, not_and]
      intro hx hk
      rcases List.mem_cons.mp hx with rfl | hx
      · exact he hk
      · exact he ((hhead x hx).le.trans hk)

def empty : OrderedMap K V := ⟨[], List.Pairwise.nil⟩

variable (m : OrderedMap K V)

def size : Nat := m.entries.length

def find? (k : K) : Option V := (m.entries.find? fun e => e.1 = k).map Prod.snd

/-- `m[k] = v`. -/
def insert (k : K) (v : V) : OrderedMap K V := ⟨insertEntry k v m.entries, sorted_insertEntry k v m.sorted⟩

def erase (k : K) : OrderedMap K V := ⟨m.entries.filter fun e => e.1 ≠ k, m.sorted.filter _⟩

/-- The entry at `begin()`. -/
def first? : Option (K × V) := m.entries.head?

/-- The entries before `upper_bound(k)`. -/
def upTo (k : K) : List (K × V) := m.entries.takeWhile fun e => e.1 ≤ k

/-- The entry at `upper_bound(k)`. -/
def upperBound (k : K) : Option (K × V) := (m.entries.dropWhile fun e => e.1 ≤ k).head?

variable {m}

lemma value_unique {k : K} {v w : V} (hv : (k, v) ∈ m.entries) (hw : (k, w) ∈ m.entries) : v = w := by
  have hpair : m.entries.Pairwise fun a b => a.1 ≠ b.1 := m.sorted.imp fun h => h.ne
  have hsymm : Std.Symm fun a b : K × V => a.1 ≠ b.1 := ⟨fun _ _ h => h.symm⟩
  by_contra hne
  have hdiff : (k, v) ≠ (k, w) := fun heq => hne (Prod.mk.inj heq).2
  exact hpair.forall hv hw hdiff rfl

lemma find?_eq_some {k : K} {v : V} : m.find? k = some v ↔ (k, v) ∈ m.entries := by
  unfold find?
  rw [Option.map_eq_some_iff]
  constructor
  · rintro ⟨e, he, rfl⟩
    have hkey := List.find?_some he
    rw [decide_eq_true_iff] at hkey
    rw [← hkey]
    exact List.mem_of_find?_eq_some he
  · intro hmem
    have hsome : (m.entries.find? fun e => e.1 = k).isSome :=
      List.find?_isSome.mpr ⟨(k, v), hmem, by simp⟩
    obtain ⟨e, he⟩ := Option.isSome_iff_exists.mp hsome
    have hkey := List.find?_some he
    rw [decide_eq_true_iff] at hkey
    have hin : (k, e.2) ∈ m.entries := by
      rw [← hkey]
      exact List.mem_of_find?_eq_some he
    exact ⟨e, he, value_unique hin hmem⟩

lemma mem_insert {k : K} {v : V} {x : K × V} :
    x ∈ (m.insert k v).entries ↔ x = (k, v) ∨ (x ∈ m.entries ∧ x.1 ≠ k) :=
  mem_insertEntry m.sorted x

lemma mem_erase {k : K} {x : K × V} : x ∈ (m.erase k).entries ↔ x ∈ m.entries ∧ x.1 ≠ k := by
  unfold erase
  rw [List.mem_filter, decide_eq_true_iff]

lemma perm_insert {k : K} {v : V} (h : ∀ e ∈ m.entries, e.1 ≠ k) :
    (m.insert k v).entries.Perm ((k, v) :: m.entries) :=
  perm_insertEntry h

lemma perm_erase {k : K} {v : V} (h : (k, v) ∈ m.entries) :
    m.entries.Perm ((k, v) :: (m.erase k).entries) :=
  perm_filter_key m.sorted h

lemma filter_insertEntry (k : K) (v : V) (es : List (K × V)) :
    (insertEntry k v es).filter (fun e => decide (e.1 ≠ k)) = es.filter fun e => decide (e.1 ≠ k) := by
  induction es with
  | nil => simp [insertEntry]
  | cons e es ih =>
    rw [insertEntry]
    split
    · simp
    · split
      · next heq => simp [heq]
      · rw [List.filter_cons, List.filter_cons, ih]

/-- Erasing forgets an assignment to the same key. -/
lemma erase_insert (k : K) (v : V) : (m.insert k v).erase k = m.erase k := by
  unfold erase insert
  simp only [filter_insertEntry]

lemma find?_eq_none {k : K} (h : ∀ e ∈ m.entries, e.1 ≠ k) : m.find? k = none := by
  cases hfind : m.find? k with
  | none => rfl
  | some v => exact absurd rfl (h (k, v) (find?_eq_some.mp hfind))

lemma first?_eq_none : m.first? = none ↔ m.entries = [] := List.head?_eq_none_iff

/-- The first entry has the least key. -/
lemma first?_least {e x : K × V} (h : m.first? = some e) (hx : x ∈ m.entries) : e.1 ≤ x.1 := by
  have hsorted := m.sorted
  unfold first? at h
  generalize m.entries = es at h hx hsorted
  cases es with
  | nil => simp at h
  | cons y es =>
    rw [List.head?_cons, Option.some.injEq] at h
    subst h
    obtain ⟨hhead, -⟩ := List.pairwise_cons.mp hsorted
    rcases List.mem_cons.mp hx with rfl | hx
    · exact le_refl _
    · exact (hhead x hx).le

lemma first?_mem {e : K × V} (h : m.first? = some e) : e ∈ m.entries := List.mem_of_head? h

/-- The entries before the upper bound are those with keys up to the bound. -/
lemma mem_upTo {k : K} {x : K × V} : x ∈ m.upTo k ↔ x ∈ m.entries ∧ x.1 ≤ k := mem_takeWhile_key m.sorted

lemma sorted_upTo (k : K) : (m.upTo k).Pairwise fun a b => a.1 < b.1 :=
  m.sorted.sublist (List.takeWhile_sublist _)

/-- The entry at the upper bound is beyond it. -/
lemma lt_of_upperBound {k : K} {e : K × V} (h : m.upperBound k = some e) :
    e ∈ m.entries ∧ k < e.1 := by
  unfold upperBound at h
  have hmem : e ∈ m.entries.dropWhile (fun e => decide (e.1 ≤ k)) := List.mem_of_head? h
  refine ⟨(List.dropWhile_sublist _).subset hmem, ?_⟩
  have hnot := List.head?_dropWhile_not (fun e : K × V => decide (e.1 ≤ k)) m.entries
  rw [h] at hnot
  simpa using hnot

end OrderedMap

end MylibMuduo
