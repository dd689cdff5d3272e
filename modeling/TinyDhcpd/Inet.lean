import TinyDhcpd.Bytes
import TinyDhcpd.Numeral
import TinyDhcpd.Datagram

/-!
The C library functions that turn text into numbers and addresses and back.

A text is the list of its characters, without the terminating zero. Addresses in an
`in_addr` are in network order; the text functions are written on the host-order number and
converted at the end.
-/

namespace TinyDhcpd.Inet

open Bytes Numeral

/-- `isspace` in the C locale. -/
def isSpace (c : Char) : Bool :=
  c = ' ' || c = '\t' || c = '\n' || c = '\r' || c = '\x0b' || c = '\x0c'

/-- The part of a string that `c_str()` shows to C code. -/
def cStr (s : List Char) : List Char := s.takeWhile fun c => c ≠ '\x00'

/-! ### `strtol` and `strtoul` -/

/-- A hexadecimal prefix is one only if a digit follows. -/
def dropHexPrefix : List Char → Option (List Char)
  | '0' :: x :: c :: s =>
    if (x = 'x' ∨ x = 'X') ∧ (digitOf 16 c).isSome then some (c :: s) else none
  | _ => none

/-- The base a number is read in, and the text from its first digit on. Base `0` leaves the
choice to the prefix. -/
def readBase (base : ℕ) (s : List Char) : ℕ × List Char :=
  if base = 0 ∨ base = 16 then
    match dropHexPrefix s with
    | some t => (16, t)
    | none => (if base = 16 then 16 else if s.head? = some '0' then 8 else 10, s)
  else (base, s)

/-- Whether the number is negative, and the text behind the sign. -/
def readSign : List Char → Bool × List Char
  | '-' :: s => (true, s)
  | '+' :: s => (false, s)
  | s => (false, s)

/-- Sign, magnitude and rest of the number at the front of the text after white space; the
magnitude is zero and the rest the whole text if there is none. -/
def readInteger (base : ℕ) (s : List Char) : Bool × ℕ × List Char :=
  let (negative, u) := readSign (s.dropWhile isSpace)
  let (base, v) := readBase base u
  if ((v.head?).bind (digitOf base)).isSome then (negative, scan base 0 v) else (negative, 0, s)

/-- `strtoul`, with `unsigned long` of 64 bits. -/
def strtoul (base : ℕ) (s : List Char) : UInt64 :=
  let (negative, n, _) := readInteger base s
  if 2 ^ 64 ≤ n then 0xffffffffffffffff
  else if negative then - UInt64.ofNat n else UInt64.ofNat n

/-- `strtol`, with `long` of 64 bits. -/
def strtol (base : ℕ) (s : List Char) : ℤ :=
  let (negative, n, _) := readInteger base s
  if negative then - min (n : ℤ) (2 ^ 63) else min (n : ℤ) (2 ^ 63 - 1)

/-- What is assigned to a `uint8_t` from a `long`. -/
def narrow (v : ℤ) : UInt8 := UInt8.ofNat (v % 256).toNat

/-! ### IPv4 addresses -/

/-- The parts of an address up to the last: at most `dots` more may follow. The value of the
part before a dot is a byte on top of `acc`; the last part fills the bytes that are left. -/
def atonParts : ℕ → ℕ → List Char → Option ℕ
  | dots, acc, s =>
    match s with
    | [] => none
    | c :: _ =>
      if (digitOf 10 c).isNone then none
      else
        let (base, t) := readBase 0 s
        match scan base 0 t with
        | (n, '.' :: rest) =>
          match dots with
          | 0 => none
          | dots + 1 => if 0xff < n then none else atonParts dots (256 * acc + n) rest
        | (n, rest) =>
          if (rest.head?).any fun c => !isSpace c then none
          else if 256 ^ (dots + 1) ≤ n then none
          else some (acc * 256 ^ (dots + 1) + n)

/-- `inet_aton`: the address in network order, if the text is one. -/
def inetAton (host : ByteOrder) (s : List Char) : Option UInt32 :=
  (atonParts 3 0 (cStr s)).map fun n => htonl host (UInt32.ofNat n)

/-- The dotted quad of a host-order number. -/
def dottedQuad (n : UInt32) : List Char :=
  Nat.toDigits 10 (n.toNat / 2 ^ 24) ++ '.' :: (Nat.toDigits 10 (n.toNat / 2 ^ 16 % 256) ++
    '.' :: (Nat.toDigits 10 (n.toNat / 2 ^ 8 % 256) ++ '.' :: Nat.toDigits 10 (n.toNat % 256)))

def inetNtoa (host : ByteOrder) (addr : UInt32) : List Char := dottedQuad (ntohl host addr)

/-- The parts of `inet_network`, each a byte in decimal, octal or hexadecimal. -/
def networkParts : ℕ → ℕ → List Char → Option ℕ
  | dots, acc, s =>
    let (octal, t) := if s.head? = some '0' then (true, s.tail) else (false, s)
    let (hex, u) := if t.head? = some 'x' ∨ t.head? = some 'X' then (true, t.tail) else (false, t)
    let base := if hex then 16 else if octal then 8 else 10
    let (n, rest) := scan base 0 u
    if rest.length = u.length ∧ (hex ∨ !octal) then none
    else if 0xff < n then none
    else match rest with
      | '.' :: rest =>
        match dots with
        | 0 => none
        | dots + 1 => networkParts dots (256 * acc + n) rest
      | _ => if (rest.dropWhile isSpace).isEmpty then some (256 * acc + n) else none

/-- `inet_network`: the host-order number, `INADDR_NONE` for a malformed text. -/
def inetNetwork (s : List Char) : UInt32 :=
  match networkParts 3 0 (cStr s) with
  | some n => UInt32.ofNat n
  | none => 0xffffffff

/-! ### MAC addresses -/

/-- The octets of `ether_aton`, `k` more after this one, each of one or two digits. -/
def etherOctets : ℕ → List Char → Option (List UInt8)
  | k, c :: s => do
    let high ← digitOf 16 c
    let ends : Bool := match k with
      | 0 => !(s.head?).any fun c => !isSpace c
      | _ => s.head? = some ':'
    let (n, rest) ← if ends then some (high, s) else do
      let low ← (s.head?).bind (digitOf 16)
      some (16 * high + low, s.tail)
    match k with
    | 0 => some [UInt8.ofNat n]
    | k + 1 =>
      if rest.head? = some ':' then do
        let octets ← etherOctets k rest.tail
        some (UInt8.ofNat n :: octets)
      else none
  | _, [] => none

/-- `ether_aton`. -/
def etherAton (s : List Char) : Option EtherAddr := do
  let octets ← etherOctets 5 (cStr s)
  if h : octets.length = 6 then some ⟨octets, h⟩ else none

/-! ### Printed numbers and addresses -/

lemma notMem_toDigits {b n : ℕ} (hb : 1 < b) (hb' : b ≤ 16) {c : Char}
    (h : digitOf b c = none) : c ∉ Nat.toDigits b n := by
  intro hc
  obtain ⟨d, hd⟩ := digitOf_of_mem_toDigits hb hb' hc
  rw [h] at hd
  cases hd

lemma cStr_eq_self {s : List Char} (h : '\x00' ∉ s) : cStr s = s := by
  induction s with
  | nil => rfl
  | cons c s ih =>
    obtain ⟨hc, hs⟩ := List.ne_and_not_mem_of_not_mem_cons h
    rw [cStr, List.takeWhile_cons_of_pos (by simpa using Ne.symm hc), ← cStr, ih hs]

lemma exists_toDigits_eq_cons {b : ℕ} (hb : 1 < b) (hb' : b ≤ 16) (n : ℕ) (s : List Char) :
    ∃ c t, Nat.toDigits b n ++ s = c :: t ∧ ∃ d < b, c = d.digitChar ∧ (0 < n → 0 < d) := by
  rcases Nat.eq_zero_or_pos n with rfl | hn
  · exact ⟨'0', s, by rw [Nat.toDigits_of_lt_base (by omega)]; rfl, 0, by omega, rfl,
      fun h => absurd h (lt_irrefl 0)⟩
  · obtain ⟨d, c, t, hd, hdb, hc, he⟩ := head?_toDigits_ne_zero hb hb' hn s
    exact ⟨c, t, he, d, hdb, hc, fun _ => hd⟩

lemma digitChar_decimal : ∀ d < 10, (0 < d → d.digitChar ≠ '0') ∧
    d.digitChar ≠ 'x' ∧ d.digitChar ≠ 'X' := by decide

lemma isSome_digitVal {b : ℕ} {c : Char} {d : ℕ} (h : digitOf b c = some d) :
    (digitVal c).isSome := by
  rw [(Option.filter_eq_some_iff.mp h).1]
  rfl

lemma plain_of_digitOf {b : ℕ} {c : Char} {d : ℕ} (h : digitOf b c = some d) :
    isSpace c = false ∧ c ≠ '-' ∧ c ≠ '+' ∧ c ≠ '\x00' := by
  have hd := isSome_digitVal h
  refine ⟨Bool.eq_false_iff.mpr fun hs => ?_, ?_, ?_, ?_⟩
  · simp only [isSpace, Bool.or_eq_true, decide_eq_true_eq] at hs
    rcases hs with ((((rfl | rfl) | rfl) | rfl) | rfl) | rfl <;> exact absurd hd (by decide)
  all_goals
    rintro rfl
    exact absurd hd (by decide)

lemma readInteger_digits {b : ℕ} {c : Char} {t : List Char} {d : ℕ} (h : digitOf b c = some d)
    (hbase : readBase b (c :: t) = (b, c :: t)) :
    readInteger b (c :: t) = (false, scan b 0 (c :: t)) := by
  obtain ⟨hs, hm, hp, -⟩ := plain_of_digitOf h
  have hsign : readSign (c :: t) = (false, c :: t) := by
    unfold readSign
    split
    · rename_i heq; cases heq; exact absurd rfl hm
    · rename_i heq; cases heq; exact absurd rfl hp
    · rfl
  rw [readInteger, List.dropWhile_cons_of_neg (by simp [hs]), hsign]
  simp [hbase, h]

lemma digitOf_of_scan {b acc n : ℕ} {c : Char} {t : List Char} (h : scan b acc (c :: t) = (n, [])) :
    ∃ d, digitOf b c = some d ∧ scan b (b * acc + d) t = (n, []) := by
  rw [scan] at h
  split at h
  · rename_i d hd
    exact ⟨d, hd, h⟩
  · cases h

lemma strtoul_digits {s : List Char} {e : UInt64} (hne : s ≠ [])
    (h : scan 10 0 s = (e.toNat, [])) : strtoul 10 s = e := by
  cases s with
  | nil => exact absurd rfl hne
  | cons c t =>
    obtain ⟨d, hd, -⟩ := digitOf_of_scan h
    have hlt := e.toNat_lt
    rw [strtoul, readInteger_digits hd (by simp [readBase]), h]
    simp only [if_neg (show ¬ 2 ^ 64 ≤ e.toNat by omega), UInt64.ofNat_toNat]
    rfl

theorem strtoul_toDigits (e : UInt64) : strtoul 10 (Nat.toDigits 10 e.toNat) = e := by
  refine strtoul_digits Nat.toDigits_ne_nil ?_
  rw [← List.append_nil (Nat.toDigits 10 e.toNat),
    scan_toDigits_append (by omega) (by omega) _ (by simp)]

lemma scan_readBase {k : ℕ} {s : List Char} (hs : ∀ c ∈ s.head?, c = '.') :
    scan (readBase 0 (Nat.toDigits 10 k ++ s)).1 0 (readBase 0 (Nat.toDigits 10 k ++ s)).2 =
      (k, s) := by
  have hstop : ∀ b ≤ 16, ∀ c ∈ s.head?, digitOf b c = none := by
    intro b _ c hc
    rw [hs c hc]
    simp [digitOf, digitVal]
  rcases Nat.eq_zero_or_pos k with rfl | hk
  · -- a zero alone is read in base 8
    have h0 : Nat.toDigits 10 0 ++ s = '0' :: s := by rw [Nat.toDigits_of_lt_base (by omega)]; rfl
    have hp : dropHexPrefix ('0' :: s) = none := by
      rcases s with _ | ⟨x, _ | ⟨c, s⟩⟩
      · rfl
      · rfl
      · have hx : x = '.' := hs x rfl
        simp [dropHexPrefix, hx]
    rw [h0]
    simp only [readBase, hp]
    exact scan_toDigits_append (b := 8) (by omega) (by omega) 0 (hstop 8 (by omega))
  · obtain ⟨c, t, he, d, hd, hc, hpos⟩ :=
      exists_toDigits_eq_cons (b := 10) (by omega) (by omega) k s
    have hne : c ≠ '0' := hc ▸ (digitChar_decimal d hd).1 (hpos hk)
    have hp : dropHexPrefix (c :: t) = none := by
      unfold dropHexPrefix
      split
      · rename_i heq; cases heq; exact absurd rfl hne
      · rfl
    have hbase : readBase 0 (c :: t) = (10, c :: t) := by simp [readBase, hp, hne]
    rw [he, hbase, ← he]
    exact scan_toDigits_append (b := 10) (by omega) (by omega) k (hstop 10 (by omega))

lemma atonParts_dot {k : ℕ} (hk : k ≤ 255) (dots acc : ℕ) (rest : List Char) :
    atonParts (dots + 1) acc (Nat.toDigits 10 k ++ '.' :: rest) =
      atonParts dots (256 * acc + k) rest := by
  obtain ⟨c, t, he, d, hd, hc, -⟩ :=
    exists_toDigits_eq_cons (b := 10) (by omega) (by omega) k ('.' :: rest)
  have hdig : digitOf 10 c = some d := by rw [hc, digitOf_digitChar (by omega) hd]
  have hscan := scan_readBase (k := k) (s := '.' :: rest) (by simp)
  rw [he] at hscan ⊢
  rw [atonParts.eq_def]
  simp only [hdig, Option.isNone_some, hscan, if_neg (show ¬ 0xff < k by omega)]
  rfl

lemma atonParts_last {k dots : ℕ} (hk : k < 256 ^ (dots + 1)) (acc : ℕ) :
    atonParts dots acc (Nat.toDigits 10 k) = some (acc * 256 ^ (dots + 1) + k) := by
  obtain ⟨c, t, he, d, hd, hc, -⟩ :=
    exists_toDigits_eq_cons (b := 10) (by omega) (by omega) k []
  have hdig : digitOf 10 c = some d := by rw [hc, digitOf_digitChar (by omega) hd]
  have hscan := scan_readBase (k := k) (s := []) (by simp)
  rw [he] at hscan
  rw [← List.append_nil (Nat.toDigits 10 k), he, atonParts.eq_def]
  simp only [hdig, Option.isNone_some, hscan, if_neg (show ¬ 256 ^ (dots + 1) ≤ k by omega)]
  rfl

lemma notMem_dottedQuad {c : Char} (hdot : c ≠ '.') (h : digitOf 10 c = none) (n : UInt32) :
    c ∉ dottedQuad n := by
  have hdig (k : ℕ) : c ∉ Nat.toDigits 10 k := notMem_toDigits (by omega) (by omega) h
  simp [dottedQuad, hdot, hdig]

lemma atonParts_dottedQuad (n : UInt32) : atonParts 3 0 (dottedQuad n) = some n.toNat := by
  have hn := n.toNat_lt
  rw [dottedQuad, atonParts_dot (by omega), atonParts_dot (by omega), atonParts_dot (by omega),
    atonParts_last (by omega)]
  congr 1
  omega

/-- **`inet_aton` inverts `inet_ntoa`.** -/
theorem inetAton_inetNtoa (host : ByteOrder) (addr : UInt32) :
    inetAton host (inetNtoa host addr) = some addr := by
  have hz : '\x00' ∉ dottedQuad (ntohl host addr) := notMem_dottedQuad (by decide) (by decide) _
  rw [inetAton, inetNtoa, cStr_eq_self hz, atonParts_dottedQuad, Option.map_some,
    UInt32.ofNat_toNat]
  exact congrArg some (ntohl_htonl host addr)

/-! ### `inet_network` -/

lemma digitOf_dot (b : ℕ) : digitOf b '.' = none := by simp [digitOf, digitVal]

/-- A part other than zero starts like a decimal number, and some of it is read. -/
lemma exists_decimal_part {k : ℕ} (hk : 0 < k) {s : List Char} (hs : ∀ c ∈ s.head?, c = '.') :
    ∃ c t, Nat.toDigits 10 k ++ s = c :: t ∧ c ≠ '0' ∧ (c ≠ 'x' ∧ c ≠ 'X') ∧
      scan 10 0 (c :: t) = (k, s) ∧ s.length ≠ t.length + 1 := by
  obtain ⟨c, t, he, d, hd, hc, hnz⟩ :=
    exists_toDigits_eq_cons (b := 10) (by omega) (by omega) k s
  obtain ⟨h0, hx⟩ := digitChar_decimal d hd
  refine ⟨c, t, he, hc ▸ h0 (hnz hk), hc ▸ hx, ?_, ?_⟩
  · rw [← he]
    exact scan_toDigits_append (by omega) (by omega) k fun c h => hs c h ▸ digitOf_dot 10
  · have hlen := congrArg List.length he
    have hpos : 0 < (Nat.toDigits 10 k).length := Nat.length_toDigits_pos
    rw [List.length_append, List.length_cons] at hlen
    omega

/-- The part before a dot is read as it was printed; a zero is an octal number without digits. -/
lemma networkParts_dot {k : ℕ} (hk : k ≤ 255) (dots acc : ℕ) (rest : List Char) :
    networkParts (dots + 1) acc (Nat.toDigits 10 k ++ '.' :: rest) =
      networkParts dots (256 * acc + k) rest := by
  rcases Nat.eq_zero_or_pos k with rfl | hpos
  · rw [Nat.toDigits_zero, List.singleton_append, networkParts.eq_def]
    simp [scan, digitOf_dot]
  · obtain ⟨c, t, he, h0, hx, hscan, hlen⟩ :=
      exists_decimal_part hpos (show ∀ c ∈ ('.' :: rest).head?, c = '.' by simp)
    have hread : rest.length ≠ t.length := fun h => hlen (by rw [List.length_cons, h])
    rw [he, networkParts.eq_def]
    simp [h0, hx, hscan, hread, show ¬ 255 < k by omega]

lemma networkParts_last {k : ℕ} (hk : k ≤ 255) (dots acc : ℕ) :
    networkParts dots acc (Nat.toDigits 10 k) = some (256 * acc + k) := by
  rcases Nat.eq_zero_or_pos k with rfl | hpos
  · rw [Nat.toDigits_zero, networkParts.eq_def]
    simp [scan]
  · obtain ⟨c, t, he, h0, hx, hscan, -⟩ :=
      exists_decimal_part hpos (show ∀ c ∈ ([] : List Char).head?, c = '.' by simp)
    rw [← List.append_nil (Nat.toDigits 10 k), he, networkParts.eq_def]
    simp [h0, hx, hscan, show ¬ 255 < k by omega]

/-- **`inet_network` reads a dotted quad.** -/
theorem inetNetwork_dottedQuad (n : UInt32) : inetNetwork (dottedQuad n) = n := by
  have hz : '\x00' ∉ dottedQuad n := notMem_dottedQuad (by decide) (by decide) _
  have hn := n.toNat_lt
  have hparts : networkParts 3 0 (dottedQuad n) = some n.toNat := by
    rw [dottedQuad, networkParts_dot (by omega), networkParts_dot (by omega),
      networkParts_dot (by omega), networkParts_last (by omega)]
    congr 1
    omega
  rw [inetNetwork, cStr_eq_self hz, hparts]
  exact UInt32.ofNat_toNat

end TinyDhcpd.Inet
