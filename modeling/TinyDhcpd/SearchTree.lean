import Mathlib.Data.Finmap
import Mathlib.Order.Preorder.Chain

/-!
Maps that are kept in a search tree and only know their keys through a comparison.

The comparison is a parameter, and whether it is an order is a question about the keys that are
compared. Where it is one, a lookup depends on the entries of the tree and not on its shape, so
the tree can be rebalanced at any time, and the map is the finite map of its assignments. Where
it is not, an entry can be in the tree and out of reach.
-/

namespace TinyDhcpd

inductive SearchTree (κ υ : Type*)
  | leaf
  | node (left : SearchTree κ υ) (key : κ) (value : υ) (right : SearchTree κ υ)

namespace SearchTree

variable {κ υ : Type*}

/-! ### Comparisons -/

/-- The comparison is a strict total order on the keys of a set. -/
structure StrictTotalOn (lt : κ → κ → Bool) (S : Set κ) : Prop where
  irrefl : ∀ a ∈ S, lt a a = false
  asymm : ∀ a ∈ S, ∀ b ∈ S, lt a b = true → lt b a = false
  trans : ∀ a ∈ S, ∀ b ∈ S, ∀ c ∈ S, lt a b = true → lt b c = true → lt a c = true
  total : ∀ a ∈ S, ∀ b ∈ S, a ≠ b → Xor (lt a b = true) (lt b a = true)

/-- **The complement of a partial order.** Being not above is a strict total order exactly on the
chains. -/
theorem strictTotalOn_iff_isChain [PartialOrder κ] {lt : κ → κ → Bool}
    (hlt : ∀ a b, lt a b = true ↔ ¬ b ≤ a) {S : Set κ} :
    StrictTotalOn lt S ↔ IsChain (· ≤ ·) S := by
  have hfalse (a b : κ) : lt a b = false ↔ b ≤ a := by
    rw [← Bool.not_eq_true, hlt, not_not]
  constructor
  · intro h a ha b hb hne
    rcases h.total a ha b hb hne with ⟨-, hba⟩ | ⟨-, hab⟩
    · rw [hlt, not_not] at hba
      exact Or.inl hba
    · rw [hlt, not_not] at hab
      exact Or.inr hab
  · intro h
    refine ⟨fun a _ => (hfalse a a).mpr le_rfl, fun a ha b hb hab => ?_,
      fun a ha b hb c hc hab hbc => ?_, fun a ha b hb hne => ?_⟩
    · rw [hlt] at hab
      exact (hfalse b a).mpr ((h.total ha hb).resolve_right hab)
    · rw [hlt] at hab hbc ⊢
      have hle : a ≤ b := (h.total ha hb).resolve_right hab
      exact fun hca => hbc (hca.trans hle)
    · simp only [Xor, hlt, not_not]
      rcases h ha hb hne with hab | hba
      · exact Or.inl ⟨fun hba => hne (hab.antisymm hba), hab⟩
      · exact Or.inr ⟨fun hab => hne (hab.antisymm hba), hba⟩

/-! ### Trees -/

/-- The entries in the order an iteration visits them. -/
def entries : SearchTree κ υ → List (κ × υ)
  | leaf => []
  | node l x v r => l.entries ++ (x, v) :: r.entries

/-- The first entry that is not less than the key, as far as the comparisons on the way tell. -/
def lowerBound (lt : κ → κ → Bool) (k : κ) : SearchTree κ υ → Option (κ × υ)
  | leaf => none
  | node l x v r => if lt x k then lowerBound lt k r else (lowerBound lt k l).or (some (x, v))

/-- The value that is found for a key: that of the lower bound, unless the key is less. -/
def find? (lt : κ → κ → Bool) (k : κ) (t : SearchTree κ υ) : Option υ :=
  (t.lowerBound lt k).bind fun e => if lt k e.1 then none else some e.2

def insertLeaf (lt : κ → κ → Bool) (k : κ) (v : υ) : SearchTree κ υ → SearchTree κ υ
  | leaf => node leaf k v leaf
  | node l x w r =>
    if lt k x then node (insertLeaf lt k v l) x w r else node l x w (insertLeaf lt k v r)

section

variable [DecidableEq κ]

def setValue (k : κ) (v : υ) : SearchTree κ υ → SearchTree κ υ
  | leaf => leaf
  | node l x w r => node (setValue k v l) x (if x = k then v else w) (setValue k v r)

/-- An assignment: the entry of the key is looked up, and created if none is found. -/
def assign (lt : κ → κ → Bool) (k : κ) (v : υ) (t : SearchTree κ υ) : SearchTree κ υ :=
  if (t.find? lt k).isSome then t.setValue k v else t.insertLeaf lt k v

/-- The trees that a sequence of assignments can end in. After each the tree may be rebalanced,
which keeps the entries in their order. -/
inductive Built (lt : κ → κ → Bool) : List (κ × υ) → SearchTree κ υ → Prop
  | empty : Built lt [] leaf
  | assign {log : List (κ × υ)} {t t' : SearchTree κ υ} {k : κ} {v : υ} (h : Built lt log t)
    (hr : t'.entries = (t.assign lt k v).entries) : Built lt (log ++ [(k, v)]) t'

end

/-! ### Lookups -/

/-- Entries with keys of a set, each less than those behind it. -/
structure Ordered (lt : κ → κ → Bool) (S : Set κ) (es : List (κ × υ)) : Prop where
  keys : ∀ e ∈ es, e.1 ∈ S
  sorted : es.Pairwise fun a b => lt a.1 b.1 = true

variable {lt : κ → κ → Bool} {S : Set κ} {k : κ} {v : υ} {es : List (κ × υ)}

lemma ordered_cons {e : κ × υ} (h : Ordered lt S (e :: es)) :
    e.1 ∈ S ∧ (∀ e' ∈ es, lt e.1 e'.1 = true) ∧ Ordered lt S es := by
  obtain ⟨hhead, htail⟩ := List.pairwise_cons.mp h.sorted
  obtain ⟨hkey, hkeys⟩ := List.forall_mem_cons.mp h.keys
  exact ⟨hkey, hhead, hkeys, htail⟩

lemma ordered_node_iff {l r : List (κ × υ)} {x : κ} {w : υ} (h : StrictTotalOn lt S) :
    Ordered lt S (l ++ (x, w) :: r) ↔ Ordered lt S l ∧ Ordered lt S r ∧ x ∈ S ∧
      (∀ e ∈ l, lt e.1 x = true) ∧ ∀ e ∈ r, lt x e.1 = true := by
  constructor
  · rintro ⟨hkeys, hsorted⟩
    obtain ⟨hl, hxr, hlr⟩ := List.pairwise_append.mp hsorted
    obtain ⟨hx, hr⟩ := List.pairwise_cons.mp hxr
    exact ⟨⟨fun e he => hkeys e (by simp [he]), hl⟩, ⟨fun e he => hkeys e (by simp [he]), hr⟩,
      hkeys (x, w) (by simp), fun e he => hlr e he (x, w) (by simp), hx⟩
  · rintro ⟨hl, hr, hx, hlx, hxr⟩
    refine ⟨fun e he => ?_, List.pairwise_append.mpr ⟨hl.sorted,
      List.pairwise_cons.mpr ⟨hxr, hr.sorted⟩, fun a ha b hb => ?_⟩⟩
    · rcases List.mem_append.mp he with he | he
      · exact hl.keys e he
      · rcases List.mem_cons.mp he with rfl | he
        · exact hx
        · exact hr.keys e he
    · rcases List.mem_cons.mp hb with rfl | hb
      · exact hlx a ha
      · exact h.trans a.1 (hl.keys a ha) x hx b.1 (hr.keys b hb) (hlx a ha) (hxr b hb)

/-- On the way to the lower bound no entry is missed. -/
lemma lowerBound_eq_find? (h : StrictTotalOn lt S) {t : SearchTree κ υ}
    (ht : Ordered lt S t.entries) (hk : k ∈ S) :
    t.lowerBound lt k = t.entries.find? fun e => !lt e.1 k := by
  induction t with
  | leaf => rfl
  | node l x w r ihl ihr =>
    obtain ⟨hl, hr, hx, hlx, -⟩ := (ordered_node_iff h).mp ht
    rw [lowerBound, entries, List.find?_append, List.find?_cons]
    by_cases hxk : lt x k = true
    · -- everything on the left is less than `x`, hence than the key
      have hleft : l.entries.find? (fun e => !lt e.1 k) = none := by
        rw [List.find?_eq_none]
        intro e he
        have hek := h.trans e.1 (hl.keys e he) x hx k hk (hlx e he) hxk
        simp [hek]
      rw [if_pos hxk, ihr hr, hleft]
      simp [hxk]
    · rw [if_neg hxk, ihl hl]
      simp [hxk]

lemma find?_bind_eq_some_iff (h : StrictTotalOn lt S) (hs : Ordered lt S es) (hk : k ∈ S) :
    ((es.find? fun e => !lt e.1 k).bind fun e => if lt k e.1 then none else some e.2) = some v ↔
      (k, v) ∈ es := by
  induction es with
  | nil => simp
  | cons e es ih =>
    obtain ⟨he, hhead, htail⟩ := ordered_cons hs
    have hkk := h.irrefl k hk
    by_cases hek : lt e.1 k = true
    · have hne : (k, v) ≠ e := by
        rintro rfl
        rw [hkk] at hek
        cases hek
      rw [List.find?_cons_of_neg (by simp [hek]), ih htail, List.mem_cons, or_iff_right hne]
    · have hnot : (k, v) ∉ es := fun hmem => hek (hhead (k, v) hmem)
      rw [List.find?_cons_of_pos (by simp [hek]), Option.bind_some, List.mem_cons,
        or_iff_left hnot]
      by_cases hke : lt k e.1 = true
      · refine iff_of_false (by simp [hke]) ?_
        rintro rfl
        rw [hkk] at hke
        cases hke
      · have heq : k = e.1 := by
          by_contra hne
          rcases h.total k hk e.1 he hne with ⟨hlt, -⟩ | ⟨hlt, -⟩
          · exact hke hlt
          · exact hek hlt
        rw [if_neg hke, Option.some.injEq, Prod.ext_iff]
        exact ⟨fun hv => ⟨heq, hv.symm⟩, fun hv => hv.2.symm⟩

/-- **A lookup finds what is in the tree**, whatever its shape. -/
theorem find?_eq_some_iff (h : StrictTotalOn lt S) {t : SearchTree κ υ}
    (ht : Ordered lt S t.entries) (hk : k ∈ S) : t.find? lt k = some v ↔ (k, v) ∈ t.entries := by
  rw [find?, lowerBound_eq_find? h ht hk, find?_bind_eq_some_iff h ht hk]

/-- The lower bound is an entry that is not less, whether or not the comparison is an order. -/
lemma mem_of_lowerBound {t : SearchTree κ υ} {e : κ × υ} (h : t.lowerBound lt k = some e) :
    e ∈ t.entries ∧ lt e.1 k = false := by
  induction t with
  | leaf => cases h
  | node l x w r ihl ihr =>
    rw [lowerBound] at h
    split_ifs at h with hxk
    · obtain ⟨hmem, hlt⟩ := ihr h
      exact ⟨by simp [entries, hmem], hlt⟩
    · rcases Option.or_eq_some_iff.mp h with hl | ⟨-, he⟩
      · obtain ⟨hmem, hlt⟩ := ihl hl
        exact ⟨by simp [entries, hmem], hlt⟩
      · obtain rfl := Option.some.inj he
        exact ⟨by simp [entries], by simpa using hxk⟩

/-- **What is found is there**, as long as different keys compare in one direction at least. -/
theorem mem_of_find? {t : SearchTree κ υ}
    (hconn : ∀ a, lt a k = false → lt k a = false → a = k) (h : t.find? lt k = some v) :
    (k, v) ∈ t.entries := by
  obtain ⟨e, hbound, he⟩ := Option.bind_eq_some_iff.mp h
  obtain ⟨hmem, hlt⟩ := mem_of_lowerBound hbound
  split_ifs at he with hke
  have hkey : e.1 = k := hconn e.1 hlt (by simpa using hke)
  rwa [← hkey, ← Option.some.inj he]

/-! ### Assignments -/

lemma mem_insertLeaf {t : SearchTree κ υ} {e : κ × υ} :
    e ∈ (t.insertLeaf lt k v).entries ↔ e = (k, v) ∨ e ∈ t.entries := by
  induction t with
  | leaf => simp [insertLeaf, entries]
  | node l x w r ihl ihr =>
    rw [insertLeaf]
    split_ifs
    · simp only [entries, List.mem_append, List.mem_cons, ihl, or_assoc]
    · simp only [entries, List.mem_append, List.mem_cons, ihr]
      tauto

lemma ordered_insertLeaf (h : StrictTotalOn lt S) {t : SearchTree κ υ} (ht : Ordered lt S t.entries)
    (hk : k ∈ S) (hnew : ∀ e ∈ t.entries, e.1 ≠ k) :
    Ordered lt S (t.insertLeaf lt k v).entries := by
  induction t with
  | leaf => exact ⟨by simp [insertLeaf, entries, hk], by simp [insertLeaf, entries]⟩
  | node l x w r ihl ihr =>
    obtain ⟨hl, hr, hx, hlx, hxr⟩ := (ordered_node_iff h).mp ht
    have hne : x ≠ k := hnew (x, w) (by simp [entries])
    rw [insertLeaf]
    split_ifs with hkx
    · have hl' := ihl hl fun e he => hnew e (by simp [entries, he])
      refine (ordered_node_iff h).mpr ⟨hl', hr, hx, fun e he => ?_, hxr⟩
      rcases mem_insertLeaf.mp he with rfl | he
      · exact hkx
      · exact hlx e he
    · have hr' := ihr hr fun e he => hnew e (by simp [entries, he])
      refine (ordered_node_iff h).mpr ⟨hl, hr', hx, hlx, fun e he => ?_⟩
      rcases mem_insertLeaf.mp he with rfl | he
      · exact ((h.total x hx k hk hne).resolve_right fun hc => hkx hc.1).1
      · exact hxr e he

variable [DecidableEq κ]

lemma entries_setValue (t : SearchTree κ υ) :
    (t.setValue k v).entries = t.entries.map fun e => (e.1, if e.1 = k then v else e.2) := by
  induction t with
  | leaf => rfl
  | node l x w r ihl ihr => simp [setValue, entries, ihl, ihr]

lemma ordered_setValue {t : SearchTree κ υ} (ht : Ordered lt S t.entries) :
    Ordered lt S (t.setValue k v).entries := by
  rw [entries_setValue]
  refine ⟨fun e he => ?_, List.pairwise_map.mpr ht.sorted⟩
  obtain ⟨e', he', rfl⟩ := List.mem_map.mp he
  exact ht.keys e' he'

/-- The tree holds the entries of a finite map, in order. -/
structure Represents (lt : κ → κ → Bool) (S : Set κ) (t : SearchTree κ υ)
    (m : Finmap fun _ : κ => υ) : Prop where
  ordered : Ordered lt S t.entries
  entries : ∀ k v, (k, v) ∈ t.entries ↔ m.lookup k = some v

lemma represents_leaf : Represents lt S (leaf : SearchTree κ υ) ∅ :=
  ⟨⟨by simp [entries], by simp [entries]⟩, by simp [entries]⟩

variable {t t' : SearchTree κ υ} {m : Finmap fun _ : κ => υ}

lemma Represents.rebalance (h : Represents lt S t m) (hr : t'.entries = t.entries) :
    Represents lt S t' m :=
  ⟨hr ▸ h.ordered, hr ▸ h.entries⟩

lemma Represents.find?_eq_lookup (h : Represents lt S t m) (hlt : StrictTotalOn lt S)
    (hk : k ∈ S) : t.find? lt k = m.lookup k :=
  Option.ext fun v => (find?_eq_some_iff hlt h.ordered hk).trans (h.entries k v)

lemma Represents.setValue (h : Represents lt S t m) {old : υ} (hold : m.lookup k = some old)
    (v : υ) : Represents lt S (t.setValue k v) (m.insert k v) := by
  refine ⟨ordered_setValue h.ordered, fun x w => ?_⟩
  rw [entries_setValue, List.mem_map]
  by_cases hx : x = k
  · subst hx
    rw [Finmap.lookup_insert, Option.some.injEq]
    constructor
    · rintro ⟨e, -, he⟩
      obtain ⟨hkey, hval⟩ := Prod.mk.inj he
      rwa [if_pos hkey] at hval
    · rintro rfl
      exact ⟨(x, old), (h.entries x old).mpr hold, by simp⟩
  · rw [Finmap.lookup_insert_of_ne _ hx, ← h.entries]
    constructor
    · rintro ⟨e, hmem, he⟩
      obtain ⟨rfl, hval⟩ := Prod.mk.inj he
      rw [if_neg hx] at hval
      exact hval ▸ hmem
    · exact fun hmem => ⟨(x, w), hmem, by simp [hx]⟩

lemma Represents.insertLeaf (h : Represents lt S t m) (hlt : StrictTotalOn lt S) (hk : k ∈ S)
    (hnone : m.lookup k = none) (v : υ) :
    Represents lt S (t.insertLeaf lt k v) (m.insert k v) := by
  have hnew : ∀ e ∈ t.entries, e.1 ≠ k := by
    rintro ⟨x, w⟩ he rfl
    rw [h.entries, hnone] at he
    cases he
  refine ⟨ordered_insertLeaf hlt h.ordered hk hnew, fun x w => ?_⟩
  rw [mem_insertLeaf]
  by_cases hx : x = k
  · subst hx
    have hnot : (x, w) ∉ t.entries := fun he => hnew _ he rfl
    rw [Finmap.lookup_insert, Option.some.injEq, or_iff_left hnot, Prod.mk.injEq]
    exact ⟨fun he => he.2.symm, fun he => ⟨rfl, he.symm⟩⟩
  · rw [Finmap.lookup_insert_of_ne _ hx, h.entries, or_iff_right fun he => hx (Prod.mk.inj he).1]

/-- **An assignment** to the tree is an insertion into the map. -/
theorem Represents.assign (h : Represents lt S t m) (hlt : StrictTotalOn lt S) (hk : k ∈ S)
    (v : υ) : Represents lt S (t.assign lt k v) (m.insert k v) := by
  rw [SearchTree.assign, h.find?_eq_lookup hlt hk]
  cases hold : m.lookup k with
  | none => exact h.insertLeaf hlt hk hold v
  | some old => exact h.setValue hold v

/-- The finite map of a sequence of assignments: the last one to a key counts. -/
def assigned (log : List (κ × υ)) : Finmap fun _ : κ => υ :=
  log.foldl (fun m e => m.insert e.1 e.2) ∅

lemma assigned_append (log : List (κ × υ)) (e : κ × υ) :
    assigned (log ++ [e]) = (assigned log).insert e.1 e.2 := by
  rw [assigned, List.foldl_append]
  rfl

lemma mem_assigned {log : List (κ × υ)} : k ∈ assigned log ↔ k ∈ log.map Prod.fst := by
  induction log using List.reverseRecOn with
  | nil => exact iff_of_false Finmap.notMem_empty List.not_mem_nil
  | append_singleton log e ih =>
    rw [assigned_append, Finmap.mem_insert, ih, List.map_append, List.mem_append, or_comm]
    simp

/-- **Every tree that is built represents its assignments.** -/
theorem Built.represents {log : List (κ × υ)} (h : Built lt log t) (hlt : StrictTotalOn lt S)
    (hS : ∀ e ∈ log, e.1 ∈ S) : Represents lt S t (assigned log) := by
  induction h with
  | empty => exact represents_leaf
  | @assign log t t' k v h hr ih =>
    rw [assigned_append]
    have hprev := ih fun e he => hS e (List.mem_append_left _ he)
    exact (hprev.assign hlt (hS (k, v) (by simp)) v).rebalance hr

/-- **Every entry comes from an assignment**, whether or not the comparison is an order. -/
theorem Built.mem_log {log : List (κ × υ)} (h : Built lt log t) {e : κ × υ}
    (he : e ∈ t.entries) : e ∈ log := by
  induction h generalizing e with
  | empty => cases he
  | @assign log t t' k v h hr ih =>
    rw [hr, SearchTree.assign] at he
    rw [List.mem_append, List.mem_singleton]
    split_ifs at he
    · rw [entries_setValue, List.mem_map] at he
      obtain ⟨old, hold, rfl⟩ := he
      by_cases hk : old.1 = k
      · exact Or.inr (by simp [hk])
      · exact Or.inl (by simpa [hk] using ih hold)
    · rcases mem_insertLeaf.mp he with rfl | he
      · exact Or.inr rfl
      · exact Or.inl (ih he)

end SearchTree

end TinyDhcpd
