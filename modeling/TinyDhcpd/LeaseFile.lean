import TinyDhcpd.Handlers
import TinyDhcpd.Text

/-!
The lease file: how the table is written when the daemon stops and read when it starts.

A line holds the sixteen octets of the key in hexadecimal, each with a colon behind it, the
address as a dotted quad and the expiry in decimal, separated by commas. The reader splits a
line at its first and its last comma, whatever is between them.
-/

namespace TinyDhcpd.LeaseFile

open Bytes Inet Text Daemon

variable (host : ByteOrder)

/-- The octets of a hardware address, as `string_format("%x", octet)` and a colon. -/
def octetsText (octets : List UInt8) : List Char :=
  octets.flatMap fun octet => Nat.toDigits 16 octet.toNat ++ [':']

/-- A line of the file, without the newline. -/
def leaseLine (entry : HwAddr × Lease) : List Char :=
  octetsText entry.1.bytes ++ ',' :: (inetNtoa host (htonl host entry.2.addr) ++
    ',' :: Nat.toDigits 10 entry.2.expiry.toNat)

/-- `write_leases` at a time: the contents of the file. -/
def writeLeases (time : UInt64) (leases : LeaseTable) : List Char :=
  (updateLeases time leases).entries.flatMap fun entry => leaseLine host entry ++ ['\n']

/-- The loop over the colons of a hardware address. An octet is stored with a bounds check;
what follows the last colon is ignored. -/
def readOctets (hwaddr : HwAddr) (index : ℕ) (s : List Char) : Except Fault HwAddr :=
  match h : findFirst ':' s with
  | none => .ok hwaddr
  | some pos =>
    if 16 ≤ index then .error .outOfRange
    else readOctets (hwaddr.set index (narrow (strtol 16 (cStr (s.take pos))))) (index + 1)
      (s.drop (pos + 1))
termination_by s.length
decreasing_by
  have hlt := lt_of_findFirst h
  rw [List.length_drop]
  omega

/-- One line. The array for the hardware address starts out with indeterminate contents
`uninit`. With a single comma the length of the middle part wraps around, so that it reaches
to the end of the line. An address that is not well formed stays zero. -/
def loadLine (uninit : HwAddr) (time : UInt64) (line : List Char) (leases : LeaseTable) :
    Except Fault LeaseTable :=
  match findFirst ',' line, findLast ',' line with
  | some first, some last =>
    let ipaddr :=
      if first = last then line.drop (first + 1)
      else (line.drop (first + 1)).take (last - first - 1)
    let timeout := strtoul 10 (cStr (line.drop (last + 1)))
    if timeout < time then .ok leases
    else do
      let hwaddr ← readOctets uninit 0 (line.take first)
      let addr := (inetAton host ipaddr).getD 0
      return leases.insert hwaddr ⟨ntohl host addr, timeout⟩
  | _, _ => .ok leases

/-- The loop over the lines; `uninit` is what the array holds at each of them, counted from
the end. -/
def loadLines (uninit : ℕ → HwAddr) (time : UInt64) :
    List (List Char) → LeaseTable → Except Fault LeaseTable
  | [], leases => .ok leases
  | line :: rest, leases => do
    let leases ← loadLine host (uninit rest.length) time line leases
    loadLines uninit time rest leases

/-- `load_leases` at a time, on the contents of the file. -/
def loadLeases (uninit : ℕ → HwAddr) (time : UInt64) (file : List Char) (leases : LeaseTable) :
    Except Fault LeaseTable :=
  loadLines host uninit time (lines file) leases

/-! ### One line -/

lemma notMem_octetsText {c : Char} (hcolon : c ≠ ':') (h : Numeral.digitOf 16 c = none)
    (octets : List UInt8) : c ∉ octetsText octets := by
  have hdig (k : ℕ) : c ∉ Nat.toDigits 16 k := notMem_toDigits (by omega) (by omega) h
  simp [octetsText, hcolon, hdig]

lemma narrow_strtol (octet : UInt8) :
    narrow (strtol 16 (cStr (Nat.toDigits 16 octet.toNat))) = octet := by
  have h : ∀ n < 256, narrow (strtol 16 (cStr (Nat.toDigits 16 n))) = UInt8.ofNat n := by
    decide +kernel
  rw [h _ octet.toNat_lt, UInt8.ofNat_toNat]

/-- The octet the reader makes of a text. -/
def octetRead (text : List Char) : UInt8 := narrow (strtol 16 (cStr text))

lemma readOctets_append {text : List Char} (hcolon : ':' ∉ text) (rest : List Char)
    (hwaddr : HwAddr) {index : ℕ} (hi : index < 16) :
    readOctets hwaddr index (text ++ ':' :: rest) =
      readOctets (hwaddr.set index (octetRead text)) (index + 1) rest := by
  have hfind : findFirst ':' (text ++ ':' :: rest) = some text.length :=
    findFirst_append hcolon rest
  rw [readOctets]
  split
  · rename_i hf
    rw [hfind] at hf
    cases hf
  · rename_i pos hf
    rw [hfind, Option.some.injEq] at hf
    subst hf
    rw [if_neg (by omega), List.take_left, ← List.drop_drop, List.drop_left]
    rfl

lemma readOctets_texts {texts : List (List Char)} (hcolon : ∀ text ∈ texts, ':' ∉ text)
    (hwaddr : HwAddr) (index : ℕ) (h : index + texts.length ≤ 16) :
    ∃ r, readOctets hwaddr index (texts.flatMap fun text => text ++ [':']) = .ok r ∧
      r.bytes = hwaddr.bytes.take index ++ texts.map octetRead ++
        hwaddr.bytes.drop (index + texts.length) := by
  induction texts generalizing hwaddr index with
  | nil =>
    refine ⟨hwaddr, ?_, by simp⟩
    rw [readOctets]
    rfl
  | cons text texts ih =>
    obtain ⟨hhead, htail⟩ := List.forall_mem_cons.mp hcolon
    rw [List.length_cons] at h
    have hlen : index < hwaddr.bytes.length := by
      rw [hwaddr.length_eq]
      omega
    have hcons : (text :: texts).flatMap (fun text => text ++ [':']) =
        text ++ ':' :: texts.flatMap fun text => text ++ [':'] := by simp
    obtain ⟨r, hr, hb⟩ := ih htail (hwaddr.set index (octetRead text)) (index + 1) (by omega)
    have htake : (hwaddr.bytes.set index (octetRead text)).take (index + 1) =
        hwaddr.bytes.take index ++ [octetRead text] := by
      rw [List.set_eq_take_append_cons_drop, if_pos hlen, List.take_append]
      simp [Nat.min_eq_left hlen.le]
    rw [hcons, readOctets_append hhead _ _ (by omega)]
    refine ⟨r, hr, ?_⟩
    rw [hb, HwAddr.set, htake, List.drop_set_of_lt (by omega)]
    simp only [List.map_cons, List.length_cons, List.append_assoc, List.cons_append,
      List.nil_append]
    rw [show index + 1 + texts.length = index + (texts.length + 1) by omega]

lemma readOctets_key {texts : List (List Char)} (hcolon : ∀ text ∈ texts, ':' ∉ text)
    {key : HwAddr} (hread : texts.map octetRead = key.bytes) (uninit : HwAddr) :
    readOctets uninit 0 (texts.flatMap fun text => text ++ [':']) = .ok key := by
  have hlen : texts.length = 16 := by rw [← key.length_eq, ← hread, List.length_map]
  obtain ⟨r, hr, hb⟩ := readOctets_texts hcolon uninit 0 (by omega)
  have hdrop : uninit.bytes.drop (0 + texts.length) = [] := by
    rw [hlen, ← uninit.length_eq, Nat.zero_add, List.drop_length]
  have hkey : r = key := by
    rw [hdrop, List.take_zero, List.nil_append, List.append_nil, hread] at hb
    cases r
    cases key
    simpa using hb
  rw [hr, hkey]

/-- **A hardware address is read back** into an array with any contents. -/
theorem readOctets_bytes (key uninit : HwAddr) :
    readOctets uninit 0 (octetsText key.bytes) = .ok key := by
  have htexts : octetsText key.bytes =
      (key.bytes.map fun octet => Nat.toDigits 16 octet.toNat).flatMap fun text =>
        text ++ [':'] := by
    rw [octetsText, List.flatMap_map]
  rw [htexts]
  refine readOctets_key (fun text ht => ?_) ?_ uninit
  · obtain ⟨octet, -, rfl⟩ := List.mem_map.mp ht
    exact notMem_toDigits (by omega) (by omega) (by decide)
  · rw [List.map_map]
    conv_rhs => rw [← List.map_id key.bytes]
    exact List.map_congr_left fun octet _ => narrow_strtol octet

variable {host}

lemma notMem_inetNtoa {c : Char} (hdot : c ≠ '.') (h : Numeral.digitOf 10 c = none)
    (addr : UInt32) : c ∉ inetNtoa host addr := notMem_dottedQuad hdot h _

lemma notMem_leaseLine (entry : HwAddr × Lease) : '\n' ∉ leaseLine host entry := by
  have h1 : '\n' ∉ octetsText entry.1.bytes := notMem_octetsText (by decide) (by decide) _
  have h2 : '\n' ∉ inetNtoa host (htonl host entry.2.addr) :=
    notMem_inetNtoa (by decide) (by decide) _
  have h3 : '\n' ∉ Nat.toDigits 10 entry.2.expiry.toNat :=
    notMem_toDigits (by omega) (by omega) (by decide)
  simp [leaseLine, h1, h2, h3]

lemma loadLine_split (uninit : HwAddr) (time : UInt64) {hwaddr timeout : List Char}
    (ipaddr : List Char) (hh : ',' ∉ hwaddr) (ht : ',' ∉ timeout) (leases : LeaseTable) :
    loadLine host uninit time (hwaddr ++ ',' :: (ipaddr ++ ',' :: timeout)) leases =
      if strtoul 10 (cStr timeout) < time then .ok leases
      else do
        let key ← readOctets uninit 0 hwaddr
        return leases.insert key
          ⟨ntohl host ((inetAton host ipaddr).getD 0), strtoul 10 (cStr timeout)⟩ := by
  have hlast : findLast ',' (hwaddr ++ ',' :: (ipaddr ++ ',' :: timeout)) =
      some (hwaddr.length + 1 + ipaddr.length) := by
    have h := findLast_append (hwaddr ++ ',' :: ipaddr) ht
    simpa [Nat.add_assoc, Nat.add_comm 1] using h
  have hdrop : (hwaddr ++ ',' :: (ipaddr ++ ',' :: timeout)).drop (hwaddr.length + 1) =
      ipaddr ++ ',' :: timeout := by
    rw [← List.drop_drop, List.drop_left]
    rfl
  have hrest : (hwaddr ++ ',' :: (ipaddr ++ ',' :: timeout)).drop
      (hwaddr.length + 1 + ipaddr.length + 1) = timeout := by
    rw [Nat.add_assoc, ← List.drop_drop, hdrop, ← List.drop_drop, List.drop_left]
    rfl
  have hne : hwaddr.length ≠ hwaddr.length + 1 + ipaddr.length := by omega
  have hmid : hwaddr.length + 1 + ipaddr.length - hwaddr.length - 1 = ipaddr.length := by omega
  rw [loadLine, findFirst_append hh, hlast]
  simp only [hdrop, hrest, if_neg hne, hmid, List.take_left]

lemma loadLine_leaseLine (uninit : HwAddr) (time : UInt64) (entry : HwAddr × Lease)
    (leases : LeaseTable) :
    loadLine host uninit time (leaseLine host entry) leases =
      .ok (if entry.2.expiry < time then leases else leases.insert entry.1 entry.2) := by
  have hh : ',' ∉ octetsText entry.1.bytes := notMem_octetsText (by decide) (by decide) _
  have ht : ',' ∉ Nat.toDigits 10 entry.2.expiry.toNat :=
    notMem_toDigits (by omega) (by omega) (by decide)
  have hnul : '\x00' ∉ Nat.toDigits 10 entry.2.expiry.toNat :=
    notMem_toDigits (by omega) (by omega) (by decide)
  rw [leaseLine, loadLine_split uninit time _ hh ht, cStr_eq_self hnul, strtoul_toDigits,
    readOctets_bytes, inetAton_inetNtoa]
  split_ifs with he
  · rfl
  · simp [bind, Except.bind, pure, Except.pure]

/-! ### The file -/

lemma lines_writeLeases (entries : List (HwAddr × Lease)) :
    lines (entries.flatMap fun entry => leaseLine host entry ++ ['\n']) =
      entries.map (leaseLine host) := by
  induction entries with
  | nil => rfl
  | cons entry entries ih =>
    calc lines ((entry :: entries).flatMap fun entry => leaseLine host entry ++ ['\n'])
        = lines (leaseLine host entry ++
            '\n' :: entries.flatMap fun entry => leaseLine host entry ++ ['\n']) := by
          rw [List.flatMap_cons, List.append_assoc, List.singleton_append]
      _ = leaseLine host entry ::
            lines (entries.flatMap fun entry => leaseLine host entry ++ ['\n']) :=
          lines_append (notMem_leaseLine entry) _
      _ = (entry :: entries).map (leaseLine host) := by rw [ih, List.map_cons]

lemma loadLines_leaseLines (uninit : ℕ → HwAddr) (time : UInt64)
    (entries : List (HwAddr × Lease)) (leases : LeaseTable) :
    loadLines host uninit time (entries.map (leaseLine host)) leases =
      .ok ((entries.filter fun e => ¬ e.2.expiry < time).foldl
        (fun m e => m.insert e.1 e.2) leases) := by
  induction entries generalizing leases with
  | nil => rfl
  | cons entry entries ih =>
    rw [List.map_cons, loadLines, loadLine_leaseLine]
    by_cases ht : entry.2.expiry < time
    · rw [if_pos ht, List.filter_cons_of_neg (by simpa using ht)]
      exact ih leases
    · rw [if_neg ht, List.filter_cons_of_pos (by simpa using ht), List.foldl_cons]
      exact ih _

/-- **The lease file round trip.** What is loaded at `t₁` from the file written at `t₀` are
the entries that are alive at `t₀` and have not expired before `t₁`. -/
theorem loadLeases_writeLeases (host : ByteOrder) (uninit : ℕ → HwAddr) (t₀ t₁ : UInt64)
    (leases : LeaseTable) :
    loadLeases host uninit t₁ (writeLeases host t₀ leases) .empty =
      .ok (leases.filter fun e => t₀ < e.2.expiry ∧ t₁ ≤ e.2.expiry) := by
  have hfilter : (updateLeases t₀ leases).entries.filter (fun e => ¬ e.2.expiry < t₁) =
      (leases.filter fun e => t₀ < e.2.expiry ∧ t₁ ≤ e.2.expiry).entries := by
    simp only [updateLeases, OrdMap.filter, List.filter_filter]
    refine List.filter_congr fun e _ => ?_
    rw [Bool.eq_iff_iff]
    simp only [Bool.and_eq_true, decide_eq_true_eq, UInt64.not_le, UInt64.not_lt]
    exact and_comm
  calc loadLeases host uninit t₁ (writeLeases host t₀ leases) .empty
      = loadLines host uninit t₁ ((updateLeases t₀ leases).entries.map (leaseLine host))
          .empty := by
        rw [loadLeases, writeLeases, lines_writeLeases]
    _ = .ok (((updateLeases t₀ leases).entries.filter fun e => ¬ e.2.expiry < t₁).foldl
          (fun m e => m.insert e.1 e.2) .empty) := loadLines_leaseLines _ _ _ _
    _ = .ok (leases.filter fun e => t₀ < e.2.expiry ∧ t₁ ≤ e.2.expiry) := by
        rw [hfilter, OrdMap.foldl_insert_entries]

end TinyDhcpd.LeaseFile
