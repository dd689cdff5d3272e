import TinyDhcpd.LeaseFile

/-!
A lease file that was not written to its end.

`write_leases` truncates the file and then writes it line by line, so a full disk or a crash of
the system leaves a beginning of it behind. The loader does not know that the last line is torn.
It nevertheless does not make up a lease: what it reads from a torn line is nothing, or the lease
itself with an earlier expiry. The first byte of an address can be read as an expiry, so this
supposes that the clock is past the 255th second of the epoch.
-/

namespace TinyDhcpd.TornFile

open Bytes Numeral Inet Text Daemon LeaseFile

variable {host : ByteOrder} {time : UInt64}

/-! ### A torn line -/

lemma strtoul_nil : strtoul 10 [] = 0 := by decide

lemma strtoul_torn {e : UInt64} {p : List Char} (h : p <+: Nat.toDigits 10 e.toNat) :
    strtoul 10 (cStr p) ≤ e := by
  have hnul : '\x00' ∉ p := fun hc =>
    notMem_toDigits (b := 10) (by omega) (by omega) (by decide) (h.subset hc)
  rw [cStr_eq_self hnul]
  rcases eq_or_ne p [] with rfl | hne
  · rw [strtoul_nil]
    exact UInt64.zero_le
  · obtain ⟨m, hm, rfl⟩ := exists_of_prefix_toDigits (by omega) hne h
    have hlt : m < 2 ^ 64 := by have := e.toNat_lt; omega
    have hof : (UInt64.ofNat m).toNat = m := UInt64.toNat_ofNat_of_lt' hlt
    have heq := strtoul_toDigits (UInt64.ofNat m)
    rw [hof] at heq
    rw [heq, UInt64.le_iff_toNat_le, hof]
    exact hm

lemma strtoul_toDigits_append {n : ℕ} (hn : n < 2 ^ 64) {rest : List Char}
    (h : ∀ c ∈ rest.head?, digitOf 10 c = none) :
    strtoul 10 (Nat.toDigits 10 n ++ rest) = UInt64.ofNat n := by
  have hscan := scan_toDigits_append (b := 10) (by omega) (by omega) n h
  cases ht : Nat.toDigits 10 n with
  | nil => exact absurd ht Nat.toDigits_ne_nil
  | cons c t =>
    obtain ⟨d, hd⟩ := digitOf_of_mem_toDigits (b := 10) (n := n) (c := c) (by omega) (by omega)
      (by simp [ht])
    rw [ht, List.cons_append] at hscan
    rw [List.cons_append, strtoul, readInteger_digits hd (by simp [readBase]), hscan]
    simp only [if_neg (show ¬ 2 ^ 64 ≤ n by omega)]
    rfl

lemma strtoul_dottedQuad {n : UInt32} {p : List Char} (h : p <+: dottedQuad n) :
    strtoul 10 (cStr p) ≤ 255 := by
  have hbyte : n.toNat / 2 ^ 24 ≤ 255 := by
    have := n.toNat_lt
    omega
  have hof : (UInt64.ofNat (n.toNat / 2 ^ 24)).toNat = n.toNat / 2 ^ 24 :=
    UInt64.toNat_ofNat_of_lt' (lt_of_le_of_lt hbyte (by decide))
  have hle : UInt64.ofNat (n.toNat / 2 ^ 24) ≤ 255 := by
    rw [UInt64.le_iff_toNat_le, hof]
    exact hbyte
  rcases prefix_append_cases h with hp | ⟨q, hq, rfl⟩
  · rw [← hof] at hp
    exact UInt64.le_trans (strtoul_torn hp) hle
  · have hnul : '\x00' ∉ Nat.toDigits 10 (n.toNat / 2 ^ 24) ++ q := fun hc =>
      notMem_dottedQuad (by decide) (by decide) n (h.subset hc)
    have hdot : ∀ c ∈ q.head?, digitOf 10 c = none := by
      intro c hc
      obtain ⟨t, rfl⟩ := List.head?_eq_some_iff.mp hc
      rw [(List.cons_prefix_cons.mp hq).1]
      decide
    rw [cStr_eq_self hnul, strtoul_toDigits_append (by omega) hdot]
    exact hle

lemma loadLine_single {hwaddr rest : List Char} (hh : ',' ∉ hwaddr) (hr : ',' ∉ rest)
    (h : strtoul 10 (cStr rest) < time) (uninit : HwAddr) (leases : LeaseTable) :
    loadLine host uninit time (hwaddr ++ ',' :: rest) leases = .ok leases := by
  have hdrop : (hwaddr ++ ',' :: rest).drop (hwaddr.length + 1) = rest := by
    rw [← List.drop_drop, List.drop_left]
    rfl
  rw [loadLine, findFirst_append hh, findLast_append hwaddr hr]
  simp only [hdrop, if_pos h]

/-- **A torn line** is skipped, or it is the lease with an earlier expiry. -/
theorem loadLine_torn (htime : 255 < time) {entry : HwAddr × Lease} {p : List Char}
    (h : p <+: leaseLine host entry) (uninit : HwAddr) (leases : LeaseTable) :
    loadLine host uninit time p leases = .ok leases ∨
      ∃ expiry ≤ entry.2.expiry, time ≤ expiry ∧ loadLine host uninit time p leases =
        .ok (leases.insert entry.1 ⟨entry.2.addr, expiry⟩) := by
  have hcomma : ',' ∉ octetsText entry.1.bytes := notMem_octetsText (by decide) (by decide) _
  have hip : ',' ∉ inetNtoa host (htonl host entry.2.addr) :=
    notMem_inetNtoa (by decide) (by decide) _
  have hbyte {q : List Char} (hq : q <+: inetNtoa host (htonl host entry.2.addr)) :
      strtoul 10 (cStr q) < time :=
    UInt64.lt_of_le_of_lt (strtoul_dottedQuad hq) htime
  rcases prefix_append_cases h with hp | ⟨q, hq, rfl⟩
  · -- no comma has been written
    have hnone : ',' ∉ p := fun hc => hcomma (hp.subset hc)
    rw [loadLine, findFirst_eq_none.mpr hnone]
    exact Or.inl rfl
  cases q with
  | nil =>
    rw [List.append_nil, loadLine, findFirst_eq_none.mpr hcomma]
    exact Or.inl rfl
  | cons c q =>
    obtain ⟨rfl, hrest⟩ := List.cons_prefix_cons.mp hq
    rcases prefix_append_cases hrest with hq | ⟨r, hr, rfl⟩
    · -- one comma: the address stands where the expiry is looked for
      exact Or.inl (loadLine_single hcomma (fun hc => hip (hq.subset hc)) (hbyte hq) _ _)
    cases r with
    | nil =>
      rw [List.append_nil]
      exact Or.inl (loadLine_single hcomma hip (hbyte List.prefix_rfl) _ _)
    | cons c r =>
      obtain ⟨rfl, hexpiry⟩ := List.cons_prefix_cons.mp hr
      have hdigits : ',' ∉ r := fun hc =>
        notMem_toDigits (b := 10) (by omega) (by omega) (by decide) (hexpiry.subset hc)
      rw [loadLine_split uninit time _ hcomma hdigits, readOctets_bytes, inetAton_inetNtoa]
      split_ifs with hover
      · exact Or.inl rfl
      · refine Or.inr ⟨_, strtoul_torn hexpiry, UInt64.not_lt.mp hover, ?_⟩
        simp [bind, Except.bind, pure, Except.pure]

/-! ### A torn file -/

def text (host : ByteOrder) (entries : List (HwAddr × Lease)) : List Char :=
  entries.flatMap fun entry => leaseLine host entry ++ ['\n']

lemma text_cons (entry : HwAddr × Lease) (entries : List (HwAddr × Lease)) :
    text host (entry :: entries) = leaseLine host entry ++ '\n' :: text host entries := by
  simp [text]

lemma count_text (entries : List (HwAddr × Lease)) :
    (text host entries).count '\n' = entries.length := by
  induction entries with
  | nil => rfl
  | cons entry entries ih =>
    have hline : (leaseLine host entry).count '\n' = 0 :=
      List.count_eq_zero_of_not_mem (notMem_leaseLine entry)
    rw [text_cons, List.count_append, List.count_cons_self, ih, hline, List.length_cons]
    omega

/-- A file that is cut off has a number of whole lines and a torn one, which may be empty. -/
lemma prefix_text {entries : List (HwAddr × Lease)} {p : List Char}
    (h : p <+: text host entries) :
    p = text host entries ∨ ∃ whole entry rest torn, entries = whole ++ entry :: rest ∧
      torn <+: leaseLine host entry ∧ p = text host whole ++ torn := by
  induction entries generalizing p with
  | nil => exact Or.inl (List.prefix_nil.mp h)
  | cons entry entries ih =>
    rw [text_cons] at h
    rcases prefix_append_cases h with hp | ⟨q, hq, rfl⟩
    · exact Or.inr ⟨[], entry, entries, p, rfl, hp, rfl⟩
    cases q with
    | nil => exact Or.inr ⟨[], entry, entries, _, rfl, List.prefix_rfl, by simp [text]⟩
    | cons c q =>
      obtain ⟨rfl, hrest⟩ := List.cons_prefix_cons.mp hq
      rcases ih hrest with rfl | ⟨whole, e, rest, torn, rfl, ht, rfl⟩
      · exact Or.inl (text_cons entry entries).symm
      · exact Or.inr ⟨entry :: whole, e, rest, torn, rfl, ht, by simp [text_cons]⟩

lemma lines_text_append (host : ByteOrder) (entries : List (HwAddr × Lease)) (torn : List Char) :
    lines (text host entries ++ torn) = entries.map (leaseLine host) ++ lines torn := by
  induction entries with
  | nil => rfl
  | cons entry entries ih =>
    calc lines (text host (entry :: entries) ++ torn)
        = lines (leaseLine host entry ++ '\n' :: (text host entries ++ torn)) := by
          rw [text_cons, List.append_assoc, List.cons_append]
      _ = leaseLine host entry :: lines (text host entries ++ torn) :=
          lines_append (notMem_leaseLine entry) _
      _ = (entry :: entries).map (leaseLine host) ++ lines torn := by
          rw [ih, List.map_cons, List.cons_append]

/-- The table that whole lines are loaded into. -/
def loaded (time : UInt64) (entries : List (HwAddr × Lease)) : LeaseTable :=
  (entries.filter fun e => ¬ e.2.expiry < time).foldl (fun m e => m.insert e.1 e.2) .empty

lemma loadLines_append (uninit : ℕ → HwAddr) (entries : List (HwAddr × Lease))
    (tail : List (List Char)) (leases : LeaseTable) :
    loadLines host uninit time (entries.map (leaseLine host) ++ tail) leases =
      loadLines host uninit time tail ((entries.filter fun e => ¬ e.2.expiry < time).foldl
        (fun m e => m.insert e.1 e.2) leases) := by
  induction entries generalizing leases with
  | nil => rfl
  | cons entry entries ih =>
    rw [List.map_cons, List.cons_append, loadLines, loadLine_leaseLine]
    by_cases ht : entry.2.expiry < time
    · rw [if_pos ht, List.filter_cons_of_neg (by simpa using ht)]
      exact ih leases
    · rw [if_neg ht, List.filter_cons_of_pos (by simpa using ht), List.foldl_cons]
      exact ih _

lemma loadLeases_text (host : ByteOrder) (uninit : ℕ → HwAddr) (time : UInt64)
    (entries : List (HwAddr × Lease)) :
    loadLeases host uninit time (text host entries) .empty = .ok (loaded time entries) := by
  have hlines := lines_text_append host entries []
  rw [List.append_nil] at hlines
  rw [loadLeases, hlines, loadLines_append]
  rfl

/-- **What is loaded from a file that is cut off**: the whole lines, and perhaps the entry of the
torn one with an earlier expiry. -/
lemma loadLeases_prefix (uninit : ℕ → HwAddr) (htime : 255 < time)
    {entries : List (HwAddr × Lease)} {p : List Char} (h : p <+: text host entries) :
    ∃ whole rest, entries = whole ++ rest ∧ p.count '\n' = whole.length ∧
      (loadLeases host uninit time p .empty = .ok (loaded time whole) ∨
        ∃ entry ∈ rest, ∃ expiry ≤ entry.2.expiry, time ≤ expiry ∧
          loadLeases host uninit time p .empty =
            .ok ((loaded time whole).insert entry.1 ⟨entry.2.addr, expiry⟩)) := by
  rcases prefix_text h with rfl | ⟨whole, entry, rest, torn, rfl, ht, rfl⟩
  · exact ⟨entries, [], (List.append_nil _).symm, count_text _,
      Or.inl (loadLeases_text host uninit time _)⟩
  have hline : '\n' ∉ torn := fun hc => notMem_leaseLine entry (ht.subset hc)
  refine ⟨whole, entry :: rest, rfl, ?_, ?_⟩
  · rw [List.count_append, count_text, List.count_eq_zero_of_not_mem hline, Nat.add_zero]
  rcases eq_or_ne torn [] with rfl | hne
  · rw [List.append_nil]
    exact Or.inl (loadLeases_text host uninit time whole)
  · have hload : loadLeases host uninit time (text host whole ++ torn) .empty =
        loadLine host (uninit 0) time torn (loaded time whole) := by
      rw [loadLeases, lines_text_append, lines_unterminated hline hne, loadLines_append]
      show (loadLine host (uninit 0) time torn (loaded time whole) >>= fun t => .ok t) = _
      cases loadLine host (uninit 0) time torn (loaded time whole) <;> rfl
    rw [hload]
    rcases loadLine_torn htime ht (uninit 0) (loaded time whole) with h | ⟨expiry, hle, h⟩
    · exact Or.inl h
    · exact Or.inr ⟨entry, List.mem_cons_self, expiry, hle, h⟩

lemma find?_loaded {entries : List (HwAddr × Lease)} (hs : entries.Pairwise fun a b => a.1 < b.1)
    {key : HwAddr} {lease : Lease} :
    (loaded time entries).find? key = some lease ↔
      (key, lease) ∈ entries ∧ time ≤ lease.expiry := by
  rw [loaded, OrdMap.find?_foldl_insert (hs.filter _), OrdMap.find?_empty]
  simp [List.mem_filter]

/-- What has been loaded is no more than was saved: each lease is a saved one, for the same
address and for no longer. -/
def Within (old new : LeaseTable) : Prop :=
  ∀ key lease, new.find? key = some lease →
    ∃ saved, old.find? key = some saved ∧ lease.addr = saved.addr ∧ lease.expiry ≤ saved.expiry

/-- The table loaded from the beginning of a file has no more in it than the file. -/
structure LoadedFrom (host : ByteOrder) (time : UInt64) (m : LeaseTable) (p : List Char)
    (table : LeaseTable) : Prop where
  within : Within m table
  live : ∀ key lease, table.find? key = some lease → time ≤ lease.expiry
  whole : ∀ before key lease after, m.entries = before ++ (key, lease) :: after →
    text host (before ++ [(key, lease)]) <+: p → time ≤ lease.expiry →
      table.find? key = some lease

lemma exists_loadedFrom (uninit : ℕ → HwAddr) (htime : 255 < time) {m : LeaseTable}
    {p : List Char} (hp : p <+: text host m.entries) :
    ∃ table, loadLeases host uninit time p .empty = .ok table ∧ LoadedFrom host time m p table := by
  obtain ⟨whole, rest, hentries, hcount, hload⟩ := loadLeases_prefix uninit htime hp
  have hsorted := m.sorted
  rw [hentries] at hsorted
  obtain ⟨hsw, -, hne⟩ := List.pairwise_append.mp hsorted
  have hold {key : HwAddr} {lease : Lease} (h : (key, lease) ∈ whole) :
      m.find? key = some lease := by
    rw [OrdMap.find?_eq_some, hentries]
    exact List.mem_append_left _ h
  -- a line that has been written is one of the whole lines
  have hmem {before : List (HwAddr × Lease)} {e : HwAddr × Lease} {after : List (HwAddr × Lease)}
      (he : m.entries = before ++ e :: after) (ht : text host (before ++ [e]) <+: p) :
      e ∈ whole := by
    have hlen : before.length < whole.length := by
      have h := ht.sublist.count_le '\n'
      rw [count_text, hcount, List.length_append, List.length_singleton] at h
      omega
    rw [hentries] at he
    have hget : (whole ++ rest)[before.length]? = some e := by simp [he]
    rw [List.getElem?_append_left hlen] at hget
    exact List.mem_of_getElem? hget
  rcases hload with hload | ⟨entry, hin, expiry, hle, hlive, hload⟩
  · refine ⟨_, hload, fun key lease h => ?_, fun key lease h => ((find?_loaded hsw).mp h).2,
      fun before key lease after he ht hl => (find?_loaded hsw).mpr ⟨hmem he ht, hl⟩⟩
    exact ⟨lease, hold ((find?_loaded hsw).mp h).1, rfl, UInt64.le_refl _⟩
  · refine ⟨_, hload, fun key lease h => ?_, fun key lease h => ?_,
      fun before key lease after he ht hl => ?_⟩
    · rw [OrdMap.find?_insert] at h
      split_ifs at h with hk
      · cases h
        refine ⟨entry.2, ?_, rfl, hle⟩
        rw [OrdMap.find?_eq_some, hentries, hk]
        exact List.mem_append_right _ hin
      · exact ⟨lease, hold ((find?_loaded hsw).mp h).1, rfl, UInt64.le_refl _⟩
    · rw [OrdMap.find?_insert] at h
      split_ifs at h with hk
      · cases h
        exact hlive
      · exact ((find?_loaded hsw).mp h).2
    · have hlt : key < entry.1 := hne _ (hmem he ht) _ hin
      rw [OrdMap.find?_insert_of_ne _ _ hlt.ne]
      exact (find?_loaded hsw).mpr ⟨hmem he ht, hl⟩

/-- **A torn file does not make up leases.** However much of the file has been written, at every
time from 256 seconds after the epoch on it is loaded without an exception: every lease that is
loaded was one, for the same address and for no longer, and has not expired; and every lease whose
line has been written is loaded as it was. -/
theorem torn_file_loads (host : ByteOrder) (uninit : ℕ → HwAddr) (t₀ t₁ : UInt64)
    (leases : LeaseTable) (htime : 255 < t₁) (p : List Char)
    (hp : p <+: writeLeases host t₀ leases) :
    ∃ table, loadLeases host uninit t₁ p .empty = .ok table ∧
      Within (updateLeases t₀ leases) table ∧
      (∀ key lease, table.find? key = some lease → t₁ ≤ lease.expiry) ∧
      ∀ before key lease after,
        (updateLeases t₀ leases).entries = before ++ (key, lease) :: after →
          text host (before ++ [(key, lease)]) <+: p → t₁ ≤ lease.expiry →
            table.find? key = some lease := by
  obtain ⟨table, hload, hfrom⟩ := exists_loadedFrom uninit htime hp
  exact ⟨table, hload, hfrom.within, hfrom.live, hfrom.whole⟩

def saved : LeaseTable := OrdMap.empty.insert (client 1) ⟨0x7f000a0a, 5000⟩

/-- Three of the four digits of the expiry have been written. -/
theorem torn_file_loads_saved :
    ∃ table, loadLeases .little (fun _ => .zero) 400
        ((writeLeases .little 300 saved).take 48) .empty = .ok table ∧
      Within (updateLeases 300 saved) table := by
  obtain ⟨table, hload, hwithin, -⟩ := torn_file_loads .little (fun _ => .zero) 300 400 saved
    (by decide) _ (List.take_prefix 48 _)
  exact ⟨table, hload, hwithin⟩

end TinyDhcpd.TornFile
