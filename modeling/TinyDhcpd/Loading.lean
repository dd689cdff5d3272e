import TinyDhcpd.LeaseFile

/-!
What `load_leases` makes of any file.

The loader looks for the commas of a line and for the colons of the hardware address, and leaves
the rest to `strtol`, `inet_aton` and `strtoul`, whose errors it does not look at. A line that has
a comma and has not expired becomes an entry, whatever else is in it.
-/

namespace TinyDhcpd.Loading

open Bytes Numeral Inet Text Daemon LeaseFile

/-! ### Entries of a lease file -/

/-- An octet in hexadecimal, of one or two digits. -/
def octetOf : List Char → Option UInt8
  | [c] => (digitOf 16 c).map UInt8.ofNat
  | [c, c'] => do
    let high ← digitOf 16 c
    let low ← digitOf 16 c'
    some (UInt8.ofNat (16 * high + low))
  | _ => none

/-- A line that is a well-formed entry: sixteen octets with a colon behind each, a dotted quad and
a number of seconds in decimal, separated by commas. -/
def WellFormed (line : List Char) (key : HwAddr) (lease : Lease) : Prop :=
  ∃ (texts : List (List Char)) (timestamp : List Char),
    texts.map octetOf = key.bytes.map some ∧ timestamp ≠ [] ∧
    scan 10 0 timestamp = (lease.expiry.toNat, []) ∧
    line = (texts.flatMap fun text => text ++ [':']) ++
      ',' :: (dottedQuad lease.addr ++ ',' :: timestamp)

/-- A well-formed entry that has not expired. -/
def Entry (time : UInt64) (line : List Char) (key : HwAddr) (lease : Lease) : Prop :=
  WellFormed line key lease ∧ ¬ lease.expiry < time

/-- The last line with an entry for the key has this lease. -/
def LastEntry (time : UInt64) (ls : List (List Char)) (key : HwAddr) (lease : Lease) : Prop :=
  ∃ before line after, ls = before ++ line :: after ∧ Entry time line key lease ∧
    ∀ l ∈ after, ∀ lease', ¬ Entry time l key lease'

/-- Loading succeeds and gives the last entry for each key; a line that is not well formed
contributes nothing, whatever has been loaded before. -/
structure Tolerates (host : ByteOrder) (uninit : ℕ → HwAddr) (time : UInt64)
    (file : List Char) : Prop where
  loaded : ∃ table, loadLeases host uninit time file .empty = .ok table ∧
    ∀ key lease, table.find? key = some lease ↔ LastEntry time (lines file) key lease
  malformed : ∀ line ∈ lines file, (∀ key lease, ¬ WellFormed line key lease) →
    ∀ u leases, loadLine host u time line leases = .ok leases

/-- The condition on a line: it is well formed, it has no comma, or what `strtoul` reads behind
its last comma is a time that is over. -/
def Harmless (time : UInt64) (line : List Char) : Prop :=
  (∃ key lease, WellFormed line key lease) ∨
    ∀ last, findLast ',' line = some last → strtoul 10 (cStr (line.drop (last + 1))) < time

variable {host : ByteOrder} {time : UInt64}

/-! ### Well-formed lines -/

lemma digit_of_mem {b acc n : ℕ} {s : List Char} (h : scan b acc s = (n, [])) {c : Char}
    (hc : c ∈ s) : ∃ d, digitOf b c = some d := by
  induction s generalizing acc with
  | nil => cases hc
  | cons x s ih =>
    obtain ⟨d, hd, hrest⟩ := digitOf_of_scan h
    rcases List.mem_cons.mp hc with rfl | hc
    · exact ⟨d, hd⟩
    · exact ih hrest hc

lemma notMem_of_scan {b acc n : ℕ} {s : List Char} (h : scan b acc s = (n, [])) {c : Char}
    (hc : digitOf b c = none) : c ∉ s := by
  intro hmem
  obtain ⟨d, hd⟩ := digit_of_mem h hmem
  rw [hc] at hd
  cases hd

lemma octetOf_eq_some {text : List Char} {octet : UInt8} (h : octetOf text = some octet) :
    ∃ n, scan 16 0 text = (n, []) ∧ octet = UInt8.ofNat n ∧ n < 256 ∧
      ∃ c t, text = c :: t ∧ t.length ≤ 1 := by
  unfold octetOf at h
  split at h
  · rename_i c
    obtain ⟨d, hd, rfl⟩ := Option.map_eq_some_iff.mp h
    have hlt : d < 16 := by simpa using (Option.filter_eq_some_iff.mp hd).2
    exact ⟨d, by simp [scan, hd], rfl, by omega, c, [], rfl, by simp⟩
  · rename_i c c'
    obtain ⟨high, hh, h⟩ := Option.bind_eq_some_iff.mp h
    obtain ⟨low, hl, h⟩ := Option.bind_eq_some_iff.mp h
    have hh' : high < 16 := by simpa using (Option.filter_eq_some_iff.mp hh).2
    have hl' : low < 16 := by simpa using (Option.filter_eq_some_iff.mp hl).2
    exact ⟨16 * high + low, by simp [scan, hh, hl], (Option.some.inj h).symm, by omega, c, [c'],
      rfl, by simp⟩
  · cases h

lemma octetRead_eq {text : List Char} {octet : UInt8} (h : octetOf text = some octet) :
    octetRead text = octet := by
  obtain ⟨n, hscan, rfl, hn, c, t, rfl, ht⟩ := octetOf_eq_some h
  have hnul : '\x00' ∉ c :: t := notMem_of_scan hscan (by decide)
  obtain ⟨d, hd, -⟩ := digitOf_of_scan hscan
  have hbase : readBase 16 (c :: t) = (16, c :: t) := by
    have hp : dropHexPrefix (c :: t) = none := by
      unfold dropHexPrefix
      split
      · rename_i heq
        cases heq
        simp at ht
      · rfl
    simp [readBase, hp]
  rw [octetRead, cStr_eq_self hnul, strtol, readInteger_digits hd hbase, hscan]
  have hmin : min (n : ℤ) (2 ^ 63 - 1) = n := min_eq_left (by omega)
  have hmod : ((n : ℤ) % 256).toNat = n := by omega
  simp only [Bool.false_eq_true, if_false, narrow, hmin, hmod]

lemma notMem_octet {text : List Char} {octet : UInt8} (h : octetOf text = some octet) {c : Char}
    (hc : digitOf 16 c = none) : c ∉ text := by
  obtain ⟨n, hscan, -⟩ := octetOf_eq_some h
  exact notMem_of_scan hscan hc

lemma exists_octet {texts : List (List Char)} {octets : List UInt8}
    (h : texts.map octetOf = octets.map some) {text : List Char} (ht : text ∈ texts) :
    ∃ octet, octetOf text = some octet := by
  have hmem : octetOf text ∈ octets.map some := h ▸ List.mem_map_of_mem ht
  obtain ⟨octet, -, ho⟩ := List.mem_map.mp hmem
  exact ⟨octet, ho.symm⟩

lemma map_octetRead {texts : List (List Char)} {octets : List UInt8}
    (h : texts.map octetOf = octets.map some) : texts.map octetRead = octets := by
  have hsome : (texts.map octetRead).map some = octets.map some := by
    rw [← h, List.map_map]
    refine List.map_congr_left fun text ht => ?_
    obtain ⟨octet, ho⟩ := exists_octet h ht
    rw [Function.comp_apply, octetRead_eq ho, ho]
  exact List.map_injective_iff.mpr (Option.some_injective _) hsome

/-- **A well-formed line is loaded** as the entry it is, unless it has expired. -/
theorem loadLine_wellFormed (host : ByteOrder) {line : List Char} {key : HwAddr} {lease : Lease}
    (h : WellFormed line key lease) (uninit : HwAddr) (time : UInt64) (leases : LeaseTable) :
    loadLine host uninit time line leases =
      .ok (if lease.expiry < time then leases else leases.insert key lease) := by
  obtain ⟨texts, timestamp, htexts, hne, hscan, rfl⟩ := h
  have hcomma : ',' ∉ texts.flatMap fun text => text ++ [':'] := by
    intro hc
    obtain ⟨text, ht, hc⟩ := List.mem_flatMap.mp hc
    obtain ⟨octet, ho⟩ := exists_octet htexts ht
    rcases List.mem_append.mp hc with hc | hc
    · exact notMem_octet ho (by decide) hc
    · exact absurd (List.mem_singleton.mp hc) (by decide)
  have hcolon : ∀ text ∈ texts, ':' ∉ text := by
    intro text ht
    obtain ⟨octet, ho⟩ := exists_octet htexts ht
    exact notMem_octet ho (by decide)
  have hstamp : ',' ∉ timestamp := notMem_of_scan hscan (by decide)
  have hnul : '\x00' ∉ timestamp := notMem_of_scan hscan (by decide)
  have haddr : inetAton host (dottedQuad lease.addr) = some (htonl host lease.addr) := by
    have h := inetAton_inetNtoa host (htonl host lease.addr)
    rwa [inetNtoa, ntohl_htonl] at h
  rw [loadLine_split uninit time _ hcomma hstamp, cStr_eq_self hnul, strtoul_digits hne hscan,
    readOctets_key hcolon (map_octetRead htexts), haddr]
  split_ifs with he
  · rfl
  · simp [bind, Except.bind, pure, Except.pure]

lemma WellFormed.unique {line : List Char} {key key' : HwAddr} {lease lease' : Lease}
    (h : WellFormed line key lease) (h' : WellFormed line key' lease') :
    key = key' ∧ lease = lease' := by
  have heq := (loadLine_wellFormed .little h .zero 0 .empty).symm.trans
    (loadLine_wellFormed .little h' .zero 0 .empty)
  have hzero (e : UInt64) : ¬ e < 0 := UInt64.not_lt_zero
  rw [if_neg (hzero _), if_neg (hzero _), Except.ok.injEq] at heq
  have hfind := OrdMap.find?_insert_self (.empty : LeaseTable) key lease
  rw [heq, OrdMap.find?_insert] at hfind
  split_ifs at hfind with hk
  · exact ⟨hk, (Option.some.inj hfind).symm⟩
  · simp at hfind

/-! ### Other lines -/

/-- A line with a comma that has not expired is loaded, whatever is in it: this fails, or the table
has an entry afterwards. -/
lemma loadLine_ne {uninit : HwAddr} {line : List Char} {last : ℕ}
    (hlast : findLast ',' line = some last)
    (htime : ¬ strtoul 10 (cStr (line.drop (last + 1))) < time) :
    loadLine host uninit time line .empty ≠ .ok .empty := by
  have hmem : ',' ∈ line := by
    by_contra hnot
    rw [findLast_eq_none.mpr hnot] at hlast
    cases hlast
  obtain ⟨first, hfirst⟩ : ∃ first, findFirst ',' line = some first := by
    rw [← Option.ne_none_iff_exists', Ne, findFirst_eq_none]
    exact not_not_intro hmem
  intro h
  rw [loadLine, hfirst, hlast] at h
  simp only [if_neg htime] at h
  cases hr : readOctets uninit 0 (line.take first) with
  | error e =>
    rw [hr] at h
    cases h
  | ok key =>
    -- the entry is in a table that is said to be empty
    rw [hr] at h
    have hfind := congrArg (fun m : LeaseTable => m.find? key) (Except.ok.inj h)
    simp at hfind

lemma loadLine_eq_self {line : List Char} (h : Harmless time line)
    (hmal : ∀ key lease, ¬ WellFormed line key lease) (uninit : HwAddr) (leases : LeaseTable) :
    loadLine host uninit time line leases = .ok leases := by
  rcases h with ⟨key, lease, hwf⟩ | h
  · exact absurd hwf (hmal key lease)
  · rw [loadLine]
    split
    · rename_i first last hfirst hlast
      exact if_pos (h last hlast)
    · rfl

/-! ### The loop -/

lemma loadLine_find? (host : ByteOrder) {line : List Char} (h : Harmless time line)
    (uninit : HwAddr) (leases : LeaseTable) :
    ∃ table, loadLine host uninit time line leases = .ok table ∧
      ∀ key lease, table.find? key = some lease ↔ Entry time line key lease ∨
        (∀ lease', ¬ Entry time line key lease') ∧ leases.find? key = some lease := by
  by_cases hwf : ∃ key lease, WellFormed line key lease
  · obtain ⟨key, lease, hwf⟩ := hwf
    refine ⟨_, loadLine_wellFormed host hwf uninit time leases, fun k v => ?_⟩
    have hentry (k : HwAddr) (v : Lease) :
        Entry time line k v ↔ k = key ∧ v = lease ∧ ¬ lease.expiry < time := by
      constructor
      · rintro ⟨hkv, ht⟩
        obtain ⟨rfl, rfl⟩ := hkv.unique hwf
        exact ⟨rfl, rfl, ht⟩
      · rintro ⟨rfl, rfl, ht⟩
        exact ⟨hwf, ht⟩
    simp only [hentry]
    by_cases ht : lease.expiry < time
    · simp [ht]
    · rw [if_neg ht, OrdMap.find?_insert]
      by_cases hk : k = key
      · simp [hk, ht, eq_comm]
      · simp [hk]
  · push Not at hwf
    refine ⟨leases, loadLine_eq_self h hwf uninit leases, fun k v => ?_⟩
    have hnone (v : Lease) : ¬ Entry time line k v := fun he => hwf k v he.1
    simp [hnone]

lemma lastEntry_cons {line : List Char} {rest : List (List Char)} {key : HwAddr} {lease : Lease} :
    LastEntry time (line :: rest) key lease ↔ LastEntry time rest key lease ∨
      Entry time line key lease ∧ ∀ l ∈ rest, ∀ lease', ¬ Entry time l key lease' := by
  constructor
  · rintro ⟨before, l, after, heq, he, hafter⟩
    cases before with
    | nil =>
      cases heq
      exact Or.inr ⟨he, hafter⟩
    | cons b before =>
      cases heq
      exact Or.inl ⟨before, l, after, rfl, he, hafter⟩
  · rintro (⟨before, l, after, rfl, he, hafter⟩ | ⟨he, hafter⟩)
    · exact ⟨line :: before, l, after, rfl, he, hafter⟩
    · exact ⟨[], line, rest, rfl, he, hafter⟩

lemma loadLines_find? (host : ByteOrder) (uninit : ℕ → HwAddr) {ls : List (List Char)}
    (h : ∀ line ∈ ls, Harmless time line) (leases : LeaseTable) :
    ∃ table, loadLines host uninit time ls leases = .ok table ∧
      ∀ key lease, table.find? key = some lease ↔ LastEntry time ls key lease ∨
        (∀ l ∈ ls, ∀ lease', ¬ Entry time l key lease') ∧ leases.find? key = some lease := by
  induction ls generalizing leases with
  | nil =>
    refine ⟨leases, rfl, fun key lease => ?_⟩
    simp [LastEntry]
  | cons line rest ih =>
    obtain ⟨hline, hrest⟩ := List.forall_mem_cons.mp h
    obtain ⟨table, hload, hfind⟩ := loadLine_find? host hline (uninit rest.length) leases
    obtain ⟨table', hload', hfind'⟩ := ih hrest table
    refine ⟨table', ?_, fun key lease => ?_⟩
    · rw [loadLines, hload]
      exact hload'
    · rw [hfind', hfind, lastEntry_cons, List.forall_mem_cons]
      tauto

/-! ### Every file -/

/-- **When loading tolerates a file.** Exactly when every line that is not well formed has no comma
or has expired: only these are left out on purpose. -/
theorem loadLeases_tolerates_iff (host : ByteOrder) (uninit : ℕ → HwAddr) (time : UInt64)
    (file : List Char) :
    Tolerates host uninit time file ↔ ∀ line ∈ lines file, Harmless time line := by
  constructor
  · rintro ⟨-, hmal⟩ line hline
    by_contra h
    unfold Harmless at h
    push Not at h
    obtain ⟨hwf, last, hlast, htime⟩ := h
    exact loadLine_ne hlast htime (hmal line hline hwf .zero .empty)
  · intro h
    refine ⟨?_, fun line hline hwf u leases => loadLine_eq_self (h line hline) hwf u leases⟩
    obtain ⟨table, hload, hfind⟩ := loadLines_find? host uninit h .empty
    refine ⟨table, hload, fun key lease => ?_⟩
    rw [hfind]
    simp

def seventeenOctets : List Char :=
  (List.replicate 17 ['0', ':']).flatten ++ ",10.0.0.1,200".toList

/-- The seventeenth octet is stored with a bounds check, and nothing catches what it throws. -/
theorem seventeen_octets_thrown :
    loadLeases .little (fun _ => .zero) 100 seventeenOctets .empty = .error .outOfRange ∧
      ¬ Tolerates .little (fun _ => .zero) 100 seventeenOctets := by
  have herr : loadLeases .little (fun _ => .zero) 100 seventeenOctets .empty =
      .error .outOfRange := by decide +kernel
  refine ⟨herr, ?_⟩
  rintro ⟨⟨table, hload, -⟩, -⟩
  rw [herr] at hload
  cases hload

end TinyDhcpd.Loading
