import Mathlib.Data.Finset.Card
import Mathlib.Data.List.Basic
import Mathlib.Data.List.Pairwise
import Mathlib.Order.Lattice

/-!
Finite maps that are iterated in the order of their keys.

A map is the list of its entries, strictly increasing in the key; the order is a field, so
there is one list for each map and two maps with the same lookups are equal. The list is
what an iteration over the map visits, and `filter` is an iteration that erases as it goes.
-/

namespace TinyDhcpd

/-- A map from `κ` to `υ` as its entries in key order. -/
structure OrdMap (κ υ : Type*) [LinearOrder κ] where
  entries : List (κ × υ)
  sorted : entries.Pairwise fun a b => a.1 < b.1

namespace OrdMap

variable {κ υ : Type*} [LinearOrder κ]

lemma eq_of_entries {m n : OrdMap κ υ} (h : m.entries = n.entries) : m = n := by
  cases m; cases n; simp only at h; subst h; rfl

instance [DecidableEq υ] : DecidableEq (OrdMap κ υ) := fun m n =>
  decidable_of_iff (m.entries = n.entries) ⟨eq_of_entries, fun h => h ▸ rfl⟩

def empty : OrdMap κ υ := ⟨[], List.Pairwise.nil⟩

def find? (m : OrdMap κ υ) (k : κ) : Option υ := (m.entries.find? fun e => e.1 = k).map Prod.snd

/-- The entry an iteration visits first. -/
def first? (m : OrdMap κ υ) : Option (κ × υ) := m.entries.head?

/-- Insertion into a list of entries: before the first larger key, over an equal one. -/
def insertEntry (k : κ) (v : υ) : List (κ × υ) → List (κ × υ)
  | [] => [(k, v)]
  | e :: es =>
    if k < e.1 then (k, v) :: e :: es
    else if k = e.1 then (k, v) :: es
    else e :: insertEntry k v es

lemma mem_insertEntry {k : κ} {v : υ} {x : κ × υ} {es : List (κ × υ)}
    (h : es.Pairwise fun a b => a.1 < b.1) :
    x ∈ insertEntry k v es ↔ x = (k, v) ∨ x.1 ≠ k ∧ x ∈ es := by
  induction es with
  | nil => simp [insertEntry]
  | cons e es ih =>
    obtain ⟨he, hes⟩ := List.pairwise_cons.mp h
    unfold insertEntry
    split_ifs with h1 h2
    · -- the new key is smaller than all others
      have hne : ∀ y ∈ e :: es, y.1 ≠ k := by
        intro y hy
        rcases List.mem_cons.mp hy with rfl | hy
        · exact ne_of_gt h1
        · exact ne_of_gt (lt_trans h1 (he y hy))
      rw [List.mem_cons]
      exact or_congr_right ⟨fun hx => ⟨hne x hx, hx⟩, And.right⟩
    · -- the new entry replaces `e`
      have hne : ∀ y ∈ es, y.1 ≠ k := fun y hy => h2 ▸ ne_of_gt (he y hy)
      rw [List.mem_cons, List.mem_cons]
      refine or_congr_right ⟨fun hx => ⟨hne x hx, Or.inr hx⟩, ?_⟩
      rintro ⟨hk, rfl | hx⟩
      · exact absurd h2.symm hk
      · exact hx
    · rw [List.mem_cons, ih hes, List.mem_cons]
      constructor
      · rintro (rfl | hx | ⟨hk, hx⟩)
        · exact Or.inr ⟨fun hk => h2 hk.symm, Or.inl rfl⟩
        · exact Or.inl hx
        · exact Or.inr ⟨hk, Or.inr hx⟩
      · rintro (hx | ⟨hk, hx | hx⟩)
        · exact Or.inr (Or.inl hx)
        · exact Or.inl hx
        · exact Or.inr (Or.inr ⟨hk, hx⟩)

lemma sorted_insertEntry (k : κ) (v : υ) {es : List (κ × υ)}
    (h : es.Pairwise fun a b => a.1 < b.1) :
    (insertEntry k v es).Pairwise fun a b => a.1 < b.1 := by
  induction es with
  | nil => simp [insertEntry]
  | cons e es ih =>
    obtain ⟨he, hes⟩ := List.pairwise_cons.mp h
    unfold insertEntry
    split_ifs with h1 h2
    · refine List.pairwise_cons.mpr ⟨fun x hx => ?_, h⟩
      rcases List.mem_cons.mp hx with rfl | hx
      · exact h1
      · exact lt_trans h1 (he x hx)
    · exact List.pairwise_cons.mpr ⟨fun x hx => h2 ▸ he x hx, hes⟩
    · refine List.pairwise_cons.mpr ⟨fun x hx => ?_, ih hes⟩
      rcases (mem_insertEntry hes).mp hx with rfl | ⟨-, hx⟩
      · exact lt_of_le_of_ne (not_lt.mp h1) (Ne.symm h2)
      · exact he x hx

def insert (m : OrdMap κ υ) (k : κ) (v : υ) : OrdMap κ υ :=
  ⟨insertEntry k v m.entries, sorted_insertEntry k v m.sorted⟩

def filter (p : κ × υ → Bool) (m : OrdMap κ υ) : OrdMap κ υ :=
  ⟨m.entries.filter p, m.sorted.filter p⟩

def erase (m : OrdMap κ υ) (k : κ) : OrdMap κ υ := m.filter fun e => e.1 ≠ k

/-! ### Lookups -/

lemma find?_eq_some {m : OrdMap κ υ} {k : κ} {v : υ} :
    m.find? k = some v ↔ (k, v) ∈ m.entries := by
  obtain ⟨es, hs⟩ := m
  simp only [find?]
  induction es with
  | nil => simp
  | cons e es ih =>
    obtain ⟨he, hes⟩ := List.pairwise_cons.mp hs
    by_cases hk : e.1 = k
    · have hnot : (k, v) ∉ es := fun h => lt_irrefl k (by simpa [hk] using he _ h)
      rw [List.find?_cons_of_pos (by simpa using hk)]
      constructor
      · intro h
        have hv : e.2 = v := by simpa using h
        exact List.mem_cons.mpr (Or.inl (Prod.ext hk.symm hv.symm))
      · intro h
        rcases List.mem_cons.mp h with h | h
        · simp [← h]
        · exact absurd h hnot
    · rw [List.find?_cons_of_neg (by simpa using hk), ih hes, List.mem_cons]
      constructor
      · exact Or.inr
      · rintro (h | h)
        · exact absurd (congrArg Prod.fst h).symm hk
        · exact h

@[simp] lemma find?_empty (k : κ) : (empty : OrdMap κ υ).find? k = none := rfl

lemma find?_insert (m : OrdMap κ υ) (k k' : κ) (v : υ) :
    (m.insert k v).find? k' = if k' = k then some v else m.find? k' := by
  ext w
  rw [find?_eq_some, insert, mem_insertEntry m.sorted]
  by_cases h : k' = k
  · simp [h, eq_comm]
  · simp [h, find?_eq_some]

@[simp] lemma find?_insert_self (m : OrdMap κ υ) (k : κ) (v : υ) :
    (m.insert k v).find? k = some v := by rw [find?_insert, if_pos rfl]

lemma find?_insert_of_ne (m : OrdMap κ υ) {k k' : κ} (v : υ) (h : k' ≠ k) :
    (m.insert k v).find? k' = m.find? k' := by rw [find?_insert, if_neg h]

lemma find?_filter (p : κ × υ → Bool) (m : OrdMap κ υ) (k : κ) :
    (m.filter p).find? k = (m.find? k).filter fun v => p (k, v) := by
  ext v
  simp only [Option.filter_eq_some_iff, find?_eq_some, filter, List.mem_filter]

lemma find?_erase (m : OrdMap κ υ) (k k' : κ) :
    (m.erase k).find? k' = if k' = k then none else m.find? k' := by
  rw [erase, find?_filter]
  by_cases h : k' = k <;> cases hf : m.find? k' <;> simp [h]

lemma find?_of_erase {m : OrdMap κ υ} {k k' : κ} {v : υ} (h : (m.erase k).find? k' = some v) :
    m.find? k' = some v := by
  rw [find?_erase] at h
  split_ifs at h
  exact h

/-! ### Extensionality and the first entry -/

lemma nodup_of_sorted {es : List (κ × υ)} (h : es.Pairwise fun a b => a.1 < b.1) : es.Nodup := by
  refine List.Pairwise.imp (fun {a b} hab => ?_) h
  rintro rfl
  exact lt_irrefl _ hab

lemma entries_ext {es fs : List (κ × υ)} (hes : es.Pairwise fun a b => a.1 < b.1)
    (hfs : fs.Pairwise fun a b => a.1 < b.1) (h : ∀ x, x ∈ es ↔ x ∈ fs) : es = fs := by
  refine List.Perm.eq_of_pairwise (fun a b _ _ hab hba => absurd hab (lt_asymm hba)) hes hfs ?_
  exact (List.perm_ext_iff_of_nodup (nodup_of_sorted hes) (nodup_of_sorted hfs)).mpr h

theorem ext_find? {m n : OrdMap κ υ} (h : ∀ k, m.find? k = n.find? k) : m = n := by
  refine eq_of_entries (entries_ext m.sorted n.sorted fun ⟨k, v⟩ => ?_)
  rw [← find?_eq_some, ← find?_eq_some, h]

/-- Entries that are inserted in key order come on top of what was there. -/
lemma find?_foldl_insert {es : List (κ × υ)} (h : es.Pairwise fun a b => a.1 < b.1)
    (m : OrdMap κ υ) {k : κ} {v : υ} :
    (es.foldl (fun m e => m.insert e.1 e.2) m).find? k = some v ↔
      (k, v) ∈ es ∨ (∀ w, (k, w) ∉ es) ∧ m.find? k = some v := by
  induction es generalizing m with
  | nil => simp
  | cons e es ih =>
    obtain ⟨he, hes⟩ := List.pairwise_cons.mp h
    rw [List.foldl_cons, ih hes, find?_insert]
    by_cases hk : k = e.1
    · have hnot : ∀ w, (k, w) ∉ es := fun w hw => lt_irrefl k (by simpa [hk] using he _ hw)
      obtain ⟨k', v'⟩ := e
      simp only at hk
      subst hk
      simp [hnot, eq_comm]
    · have hne : ∀ w, (k, w) ≠ e := fun w hw => hk (congrArg Prod.fst hw)
      simp [hk, hne]

theorem foldl_insert_entries (m : OrdMap κ υ) :
    m.entries.foldl (fun n e => n.insert e.1 e.2) empty = m := by
  refine ext_find? fun k => Option.ext fun v => ?_
  rw [find?_foldl_insert m.sorted, find?_empty, ← find?_eq_some]
  simp

lemma first?_eq_some {m : OrdMap κ υ} {k : κ} {v : υ} :
    m.first? = some (k, v) ↔ m.find? k = some v ∧ ∀ k' v', m.find? k' = some v' → k ≤ k' := by
  simp only [find?_eq_some, first?]
  obtain ⟨es, hs⟩ := m
  cases es with
  | nil => simp
  | cons e es =>
    obtain ⟨he, -⟩ := List.pairwise_cons.mp hs
    rw [List.head?_cons, Option.some.injEq]
    constructor
    · rintro rfl
      refine ⟨List.mem_cons_self, fun k' v' hmem => ?_⟩
      rcases List.mem_cons.mp hmem with hmem | hmem
      · exact le_of_eq (congrArg Prod.fst hmem).symm
      · exact (he _ hmem).le
    · rintro ⟨hmem, hleast⟩
      rcases List.mem_cons.mp hmem with hmem | hmem
      · exact hmem.symm
      · exact absurd (he _ hmem) (not_lt.mpr (hleast e.1 e.2 List.mem_cons_self))

lemma first?_of_least {m : OrdMap κ υ} {k : κ} {v : υ} (h : m.find? k = some v)
    (hk : ∀ k', k ≤ k') : m.first? = some (k, v) :=
  first?_eq_some.mpr ⟨h, fun k' _ _ => hk k'⟩

lemma exists_first? {m : OrdMap κ υ} {k : κ} {v : υ} (h : m.find? k = some v) :
    ∃ e, m.first? = some e := by
  refine Option.isSome_iff_exists.mp (List.isSome_head?.mpr ?_)
  exact List.ne_nil_of_mem (find?_eq_some.mp h)

lemma first?_insert_of_lt {m : OrdMap κ υ} {k : κ} {e : κ × υ} (v : υ)
    (he : (m.erase k).first? = some e) (hlt : e.1 < k) : (m.insert k v).first? = some e := by
  obtain ⟨hf, hleast⟩ := first?_eq_some.mp he
  refine first?_eq_some.mpr ⟨?_, fun k' v' hk' => ?_⟩
  · rw [find?_insert_of_ne _ _ hlt.ne]
    exact find?_of_erase hf
  · rw [find?_insert] at hk'
    split_ifs at hk' with hkk
    · exact hkk ▸ hlt.le
    · exact hleast k' v' (by rw [find?_erase, if_neg hkk, hk'])

lemma first?_insert_self {m : OrdMap κ υ} {k : κ} (v : υ)
    (h : ∀ e, (m.erase k).first? = some e → ¬ e.1 < k) : (m.insert k v).first? = some (k, v) := by
  refine first?_eq_some.mpr ⟨find?_insert_self m k v, fun k' v' hk' => ?_⟩
  rw [find?_insert] at hk'
  split_ifs at hk' with hkk
  · exact hkk.ge
  · have herase : (m.erase k).find? k' = some v' := by rw [find?_erase, if_neg hkk, hk']
    obtain ⟨e, he⟩ := exists_first? herase
    exact (not_lt.mp (h e he)).trans ((first?_eq_some.mp he).2 k' v' herase)

/-! ### The number of entries -/

def keys (m : OrdMap κ υ) : Finset κ := (m.entries.map Prod.fst).toFinset

lemma mem_keys {m : OrdMap κ υ} {k : κ} : k ∈ m.keys ↔ ∃ v, m.find? k = some v := by
  simp [keys, find?_eq_some]

theorem card_keys (m : OrdMap κ υ) : m.keys.card = m.entries.length := by
  have hnodup : (m.entries.map Prod.fst).Nodup :=
    List.pairwise_map.mpr (m.sorted.imp fun h => ne_of_lt h)
  rw [keys, List.toFinset_card_of_nodup hnodup, List.length_map]

end OrdMap

end TinyDhcpd
