import TinyDhcpd.Config
import TinyDhcpd.SearchTree

/-!
The map of the reservations, and the comparison it keeps its MAC addresses by.

`operator<` goes through the octets of two addresses and returns true at the first that is less,
but goes on where one is greater. It asks whether the left address is less in any octet, so two
addresses with octets that differ in both directions are each less than the other.
-/

namespace TinyDhcpd.FixedHosts

open Bytes Inet Config SearchTree

/-! ### The comparison -/

/-- The loop over the octets. -/
def lessLoop : List UInt8 → List UInt8 → Bool
  | l :: lhs, r :: rhs => if l < r then true else lessLoop lhs rhs
  | _, _ => false

/-- `operator<` of `ether_addr`. -/
def less (lhs rhs : EtherAddr) : Bool := lessLoop lhs.octets rhs.octets

def octet (a : EtherAddr) (i : Fin 6) : ℕ := (a.octets.getD i 0).toNat

lemma octet_injective : Function.Injective octet := by
  rintro ⟨a, ha⟩ ⟨b, hb⟩ h
  have heq : a = b := by
    refine List.ext_getElem (ha.trans hb.symm) fun i h1 h2 => ?_
    have hi := congrFun h ⟨i, ha ▸ h1⟩
    simp only [octet, List.getD_eq_getElem _ _ h1, List.getD_eq_getElem _ _ h2] at hi
    exact UInt8.toNat_inj.mp hi
  subst heq
  rfl

/-- Addresses are compared octet by octet: one is below another if no octet of it is greater. -/
instance : PartialOrder EtherAddr := PartialOrder.lift octet octet_injective

lemma le_iff {a b : EtherAddr} : a ≤ b ↔ ∀ i, octet a i ≤ octet b i := Iff.rfl

lemma lessLoop_eq_true_iff {lhs rhs : List UInt8} (h : lhs.length = rhs.length) :
    lessLoop lhs rhs = true ↔ ∃ i < lhs.length, lhs.getD i 0 < rhs.getD i 0 := by
  induction lhs generalizing rhs with
  | nil => simp [lessLoop]
  | cons l lhs ih =>
    cases rhs with
    | nil => cases h
    | cons r rhs =>
      rw [List.length_cons, Nat.exists_lt_succ_left]
      simp only [List.getD_cons_zero, List.getD_cons_succ]
      rw [← ih (Nat.succ.inj h), lessLoop]
      by_cases hlr : l < r
      · simp [hlr]
      · simp [hlr]

/-- **What `operator<` tests**: that the left address is not above the right. -/
theorem less_eq_true_iff (a b : EtherAddr) : less a b = true ↔ ¬ b ≤ a := by
  rw [less, lessLoop_eq_true_iff (a.length_eq.trans b.length_eq.symm), le_iff, a.length_eq]
  push Not
  constructor
  · rintro ⟨i, hi, hlt⟩
    exact ⟨⟨i, hi⟩, UInt8.lt_iff_toNat_lt.mp hlt⟩
  · rintro ⟨i, hlt⟩
    exact ⟨i, i.isLt, UInt8.lt_iff_toNat_lt.mpr hlt⟩

lemma eq_of_not_less {a b : EtherAddr} (hab : less a b = false) (hba : less b a = false) :
    a = b := by
  rw [← Bool.not_eq_true, less_eq_true_iff, not_not] at hab hba
  exact hba.antisymm hab

/-! ### Lookups -/

/-- In every map that is built from assignments to addresses of the set, a lookup finds an entry
exactly if there was an assignment to its address. -/
def FindsInserted (S : Set EtherAddr) : Prop :=
  ∀ (log : List (EtherAddr × UInt32)) (t : SearchTree EtherAddr UInt32), (∀ e ∈ log, e.1 ∈ S) →
    Built less log t → ∀ mac ∈ S, (t.find? less mac).isSome = true ↔ mac ∈ log.map Prod.fst

lemma strictTotalOn_less_iff (S : Set EtherAddr) :
    StrictTotalOn less S ↔ IsChain (· ≤ ·) S :=
  strictTotalOn_iff_isChain less_eq_true_iff

/-- Of two addresses that are each less than the other, the one that is assigned second is put on
the side of the first where no lookup goes. -/
lemma lost_of_mixed {a b : EtherAddr} (hab : less a b = true) (hba : less b a = true)
    (x y : UInt32) :
    ∃ t, Built less [(a, x), (b, y)] t ∧ t.find? less b = none := by
  have hfirst : Built less [(a, x)] (.node .leaf a x .leaf) := Built.assign .empty rfl
  have hnone : (SearchTree.node .leaf a x .leaf).find? less b = none := by
    simp [find?, lowerBound, hab]
  -- `b` goes to the left of `a` when it is assigned, and is looked for on the right
  refine ⟨.node (.node .leaf b y .leaf) a x .leaf, Built.assign hfirst ?_, ?_⟩
  · rw [SearchTree.assign, hnone]
    simp [insertLeaf, hba]
  · simp [find?, lowerBound, hab]

/-- **When the comparison is good for a map.** On a set of addresses `operator<` is a strict total
order, and every map finds what was inserted, exactly if of any two addresses of the set one is
nowhere greater than the other. -/
theorem less_valid_iff (S : Set EtherAddr) :
    (StrictTotalOn less S ↔ IsChain (· ≤ ·) S) ∧ (FindsInserted S ↔ IsChain (· ≤ ·) S) := by
  refine ⟨strictTotalOn_less_iff S, fun h a ha b hb hne => ?_, fun h => ?_⟩
  · by_contra hmixed
    obtain ⟨hab, hba⟩ := not_or.mp hmixed
    obtain ⟨t, ht, hnone⟩ := lost_of_mixed ((less_eq_true_iff a b).mpr hba)
      ((less_eq_true_iff b a).mpr hab) 0 0
    have hfound := (h [(a, 0), (b, 0)] t (by simp [ha, hb]) ht b hb).mpr (by simp)
    rw [hnone] at hfound
    cases hfound
  · intro log t hS ht mac hmac
    have hlt := (strictTotalOn_less_iff S).mpr h
    rw [(ht.represents hlt hS).find?_eq_lookup hlt hmac, Finmap.lookup_isSome, mem_assigned]

/-! ### The hosts list -/

/-- The assignment that `parse_hosts` makes for a group of the hosts list, if any. -/
def hostEntry (host : ByteOrder) (cfg : SubnetConfiguration) (entry : Setting) :
    Option (EtherAddr × UInt32) := do
  let ether ← entry.lookupString "ether"
  let fixed ← entry.lookupString "fixed-address"
  let mac ← etherAton ether
  let addr ← inetAton host fixed
  if addr &&& cfg.netmask ≠ cfg.subnetAddress &&& cfg.netmask then none else some (mac, addr)

def hostLog (host : ByteOrder) (cfg : SubnetConfiguration) (hosts : Setting) :
    List (EtherAddr × UInt32) := hosts.elements.filterMap (hostEntry host cfg)

variable {host : ByteOrder} {cfg : SubnetConfiguration}

lemma parseHost_eq (entry : Setting) :
    parseHost host cfg entry = (hostEntry host cfg entry).elim cfg fun e =>
      { cfg with fixedHosts := cfg.fixedHosts.insert e.1 e.2 } := by
  unfold parseHost hostEntry
  cases entry.lookupString "ether" with
  | none => rfl
  | some ether =>
    cases entry.lookupString "fixed-address" with
    | none => rfl
    | some fixed =>
      dsimp only [Option.bind_eq_bind, Option.bind_some]
      cases etherAton ether with
      | none => rfl
      | some mac =>
        cases inetAton host fixed with
        | none => rfl
        | some addr =>
          dsimp only [Option.bind_some]
          split_ifs <;> rfl

lemma fixedHosts_parseHosts (hosts : Setting) :
    (parseHosts host hosts cfg).fixedHosts =
      (hostLog host cfg hosts).foldl (fun m e => m.insert e.1 e.2) cfg.fixedHosts := by
  unfold parseHosts hostLog
  generalize hosts.elements = entries
  induction entries generalizing cfg with
  | nil => rfl
  | cons entry entries ih =>
    rw [List.foldl_cons, ih, parseHost_eq]
    cases he : hostEntry host cfg entry with
    | none => rw [List.filterMap_cons_none he, Option.elim_none]
    | some e =>
      rw [List.filterMap_cons_some he, Option.elim_some, List.foldl_cons]
      rfl

/-- **The reservations are found** as the configuration has them, in every map that `parse_hosts`
can build, if the addresses of the list and the one that is looked up are a chain. -/
theorem find?_eq_lookup_fixedHosts {hosts : Setting} (hempty : cfg.fixedHosts = ∅)
    {t : SearchTree EtherAddr UInt32} (ht : Built less (hostLog host cfg hosts) t)
    {S : Set EtherAddr} (hchain : IsChain (· ≤ ·) S)
    (hS : ∀ e ∈ hostLog host cfg hosts, e.1 ∈ S) {mac : EtherAddr} (hmac : mac ∈ S) :
    t.find? less mac = (parseHosts host hosts cfg).fixedHosts.lookup mac := by
  have hlt := (strictTotalOn_less_iff S).mpr hchain
  rw [(ht.represents hlt hS).find?_eq_lookup hlt hmac, fixedHosts_parseHosts, hempty]
  rfl

/-- **No reservation goes to another host.** What is found for an address stands in the list for
this address, whatever the addresses are. -/
theorem mem_hostLog_of_find? {hosts : Setting} {t : SearchTree EtherAddr UInt32}
    (ht : Built less (hostLog host cfg hosts) t) {mac : EtherAddr} {addr : UInt32}
    (h : t.find? less mac = some addr) : (mac, addr) ∈ hostLog host cfg hosts :=
  ht.mem_log (mem_of_find? (fun _ => eq_of_not_less) h)

/-- Two hosts whose addresses differ in both directions. -/
def mixed : EtherAddr := ⟨[0, 1, 0, 0, 0, 0], rfl⟩
def mixed' : EtherAddr := ⟨[1, 0, 0, 0, 0, 0], rfl⟩

/-- A hosts list with a reservation for each. -/
def mixedHosts : Setting :=
  .list
    [.group [("ether", .string "00:01:00:00:00:00".toList),
       ("fixed-address", .string "127.0.10.10".toList)],
     .group [("ether", .string "01:00:00:00:00:00".toList),
       ("fixed-address", .string "127.0.10.20".toList)]]

/-- Both are less than the other, and the reservation of the second is lost. -/
theorem mixed_hosts_lost :
    hostLog .little exampleConfig mixedHosts = [(mixed, 0x0a0a007f), (mixed', 0x140a007f)] ∧
      less mixed mixed' = true ∧ less mixed' mixed = true ∧ ¬ StrictTotalOn less Set.univ ∧
      (∃ t, Built less (hostLog .little exampleConfig mixedHosts) t ∧
        t.find? less mixed' = none) ∧ ¬ FindsInserted Set.univ := by
  have hlog : hostLog .little exampleConfig mixedHosts =
      [(mixed, 0x0a0a007f), (mixed', 0x140a007f)] := by decide +kernel
  have hab : less mixed mixed' = true := by decide
  have hba : less mixed' mixed = true := by decide
  obtain ⟨t, ht, hnone⟩ := lost_of_mixed hab hba 0x0a0a007f 0x140a007f
  refine ⟨hlog, hab, hba, fun h => ?_, ⟨t, hlog ▸ ht, hnone⟩, fun h => ?_⟩
  · have hnot := h.asymm mixed trivial mixed' trivial hab
    rw [hba] at hnot
    cases hnot
  · have hfound := (h _ t (fun e _ => trivial) ht mixed' trivial).mpr (by simp)
    rw [hnone] at hfound
    cases hfound

end TinyDhcpd.FixedHosts
