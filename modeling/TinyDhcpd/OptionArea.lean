import TinyDhcpd.Datagram

/-!
What `parse_options` makes of an options area: when it stays inside of the buffer, and that
it inverts the encoder.

The parser is followed one pad or item at a time. A grammar of byte lists says which areas
it leaves before their bytes run out; all other areas make it read past the end.
-/

namespace TinyDhcpd.OptionArea

open Bytes OptionTag DhcpDatagram

/-- The tag of an item: neither a pad nor the end. -/
def Tagged (tag : OptionTag) : Prop := tag ≠ PAD ∧ tag ≠ OPTIONS_END

instance (tag : OptionTag) : Decidable (Tagged tag) := inferInstanceAs (Decidable (_ ∧ _))

lemma predefined_eq_zero_iff (tag : OptionTag) :
    predefinedOptionLengths tag = some 0 ↔ ¬ Tagged tag := by
  unfold predefinedOptionLengths Tagged
  split_ifs <;> simp_all <;> decide

/-! ### One round of the loop -/

variable (n : ℕ) (p : Options)

@[simp] lemma parseLoop_nil : parseLoop n [] p = .error (.outOfBounds n) := by
  rw [parseLoop]

@[simp] lemma parseLoop_end (bytes : List UInt8) :
    parseLoop n (OPTIONS_END :: bytes) p = .ok p := by
  rw [parseLoop.eq_def]
  simp only [if_pos ((predefined_eq_zero_iff _).mpr fun h => h.2 rfl), if_pos]

@[simp] lemma parseLoop_pad (bytes : List UInt8) :
    parseLoop n (PAD :: bytes) p = parseLoop n bytes p := by
  rw [parseLoop.eq_def]
  simp only [if_pos ((predefined_eq_zero_iff _).mpr fun h => h.1 rfl),
    if_neg (show PAD ≠ OPTIONS_END by decide)]

variable {tag : OptionTag}

lemma parseLoop_cut (ht : Tagged tag) : parseLoop n [tag] p = .error (.outOfBounds n) := by
  rw [parseLoop, if_neg fun h => (predefined_eq_zero_iff tag).mp h ht]

lemma parseLoop_illegal (ht : Tagged tag) {length : UInt8} (hl : IllegalLength tag length)
    (bytes : List UInt8) : parseLoop n (tag :: length :: bytes) p =
      .error (.invalidArgument (lengthMessage tag length)) := by
  rw [parseLoop, if_neg fun h => (predefined_eq_zero_iff tag).mp h ht]
  simp only [if_pos hl]

lemma parseLoop_short (ht : Tagged tag) {length : UInt8} (hl : ¬ IllegalLength tag length)
    {bytes : List UInt8} (hb : bytes.length < length.toNat) :
    parseLoop n (tag :: length :: bytes) p = .error (.outOfBounds n) := by
  rw [parseLoop, if_neg fun h => (predefined_eq_zero_iff tag).mp h ht]
  simp only [if_neg hl, if_pos hb]

lemma parseLoop_item (ht : Tagged tag) {length : UInt8} (hl : ¬ IllegalLength tag length)
    {value : List UInt8} (hv : value.length = length.toNat) (bytes : List UInt8) :
    parseLoop n (tag :: length :: (value ++ bytes)) p =
      parseLoop n bytes (p.insert tag value) := by
  rw [parseLoop, if_neg fun h => (predefined_eq_zero_iff tag).mp h ht]
  simp only [if_neg hl]
  rw [if_neg (by rw [List.length_append]; omega), ← hv, List.drop_left, List.take_left]

/-! ### Staying inside of the buffer -/

/-- The areas that end before their bytes run out: pads and complete items, up to an
`OPTIONS_END` or to an item whose length is not the predefined one. -/
inductive Contained : List UInt8 → Prop
  | stop (bytes : List UInt8) : Contained (OPTIONS_END :: bytes)
  | pad {bytes : List UInt8} (h : Contained bytes) : Contained (PAD :: bytes)
  | illegal {tag : OptionTag} {length : UInt8} (ht : Tagged tag) (hl : IllegalLength tag length)
    (bytes : List UInt8) : Contained (tag :: length :: bytes)
  | item {tag : OptionTag} {length : UInt8} {value bytes : List UInt8} (ht : Tagged tag)
    (hl : ¬ IllegalLength tag length) (hv : value.length = length.toNat) (h : Contained bytes) :
    Contained (tag :: length :: (value ++ bytes))

lemma Contained.parseLoop_cases {bytes : List UInt8} (h : Contained bytes) :
    (∃ m, parseLoop n bytes p = .ok m) ∨
      ∃ what, parseLoop n bytes p = .error (.invalidArgument what) := by
  induction h generalizing p with
  | stop bytes => exact Or.inl ⟨p, parseLoop_end n p bytes⟩
  | pad h ih => rw [parseLoop_pad]; exact ih p
  | illegal ht hl bytes => exact Or.inr ⟨_, parseLoop_illegal n p ht hl bytes⟩
  | item ht hl hv h ih => rw [parseLoop_item n p ht hl hv]; exact ih _

lemma contained_or_outOfBounds (bytes : List UInt8) :
    Contained bytes ∨ parseLoop n bytes p = .error (.outOfBounds n) := by
  -- an item can be of any length, so the induction is on the length of the area
  induction hn : bytes.length using Nat.strong_induction_on generalizing bytes p with
  | _ k ih =>
    subst hn
    cases bytes with
    | nil => exact Or.inr (parseLoop_nil n p)
    | cons tag rest =>
      by_cases ht : Tagged tag
      · cases rest with
        | nil => exact Or.inr (parseLoop_cut n p ht)
        | cons length rest =>
          by_cases hl : IllegalLength tag length
          · exact Or.inl (.illegal ht hl rest)
          by_cases hb : rest.length < length.toNat
          · exact Or.inr (parseLoop_short n p ht hl hb)
          have hv : (rest.take length.toNat).length = length.toNat := by
            rw [List.length_take]; omega
          rw [← List.take_append_drop length.toNat rest, parseLoop_item n p ht hl hv]
          refine (ih _ ?_ _ _ rfl).imp_left (Contained.item ht hl hv)
          simp only [List.length_cons, List.length_drop]
          omega
      · by_cases hp : tag = PAD
        · subst hp
          rw [parseLoop_pad]
          exact (ih rest.length (by simp) p rest rfl).imp_left Contained.pad
        · have he : tag = OPTIONS_END := by
            by_contra he
            exact ht ⟨hp, he⟩
          subst he
          exact Or.inl (.stop rest)

/-- **Reading stays inside of the buffer** exactly for the empty buffer, where the loop is
not entered, and for the areas of the grammar. -/
theorem parseOptions_inBounds_iff (buffer : List UInt8) :
    (∀ i, parseOptions buffer ≠ .error (.outOfBounds i)) ↔ buffer = [] ∨ Contained buffer := by
  unfold parseOptions
  by_cases hb : 0 < buffer.length
  · rw [if_pos hb]
    have hne : buffer ≠ [] := List.ne_nil_of_length_pos hb
    simp only [hne, false_or]
    constructor
    · intro h
      exact (contained_or_outOfBounds buffer.length ∅ buffer).resolve_right (h _)
    · intro h i
      rcases h.parseLoop_cases buffer.length ∅ with ⟨m, hm⟩ | ⟨what, hw⟩
      · rw [hm]; simp
      · rw [hw]; simp
  · rw [if_neg hb]
    have hnil : buffer = [] := List.length_eq_zero_iff.mp (by omega)
    simp [hnil]

lemma parseLoop_replicate_pad (k : ℕ) :
    parseLoop n (List.replicate k PAD) p = .error (.outOfBounds n) := by
  induction k with
  | zero => exact parseLoop_nil n p
  | succ k ih => rw [List.replicate_succ, parseLoop_pad, ih]

/-- An options area of pads, as in a packet of zeros, is read at index 336 of its 336
bytes. -/
theorem parseOptions_pads_outOfBounds :
    ∃ buffer : List UInt8, OPTIONS_END ∉ buffer ∧
      parseOptions buffer = .error (.outOfBounds buffer.length) := by
  refine ⟨List.replicate 336 PAD, fun h => ?_, ?_⟩
  · exact absurd (List.eq_of_mem_replicate h) (by decide)
  · rw [parseOptions, if_pos (by rw [List.length_replicate]; norm_num)]
    exact parseLoop_replicate_pad _ _ 336

/-! ### What is parsed -/

/-- Values of a tag with a predefined length have that length. -/
def LegalLengths (m : Options) : Prop :=
  ∀ tag value, m.lookup tag = some value →
    ∀ legal ∈ predefinedOptionLengths tag, value.length = legal.toNat

variable {n p} in
lemma Contained.forall_of_parseLoop {P : OptionTag → List UInt8 → Prop}
    (hP : ∀ tag length value, Tagged tag → ¬ IllegalLength tag length →
      value.length = length.toNat → P tag value) {bytes : List UInt8} (h : Contained bytes)
    {m : Options} (hp : ∀ tag value, p.lookup tag = some value → P tag value)
    (hm : parseLoop n bytes p = .ok m) : ∀ tag value, m.lookup tag = some value → P tag value := by
  induction h generalizing p with
  | stop bytes =>
    rw [parseLoop_end] at hm
    exact Except.ok.inj hm ▸ hp
  | pad h ih => exact ih hp (by rwa [parseLoop_pad] at hm)
  | illegal ht hl bytes =>
    rw [parseLoop_illegal n p ht hl] at hm
    cases hm
  | @item tag length value bytes ht hl hv h ih =>
    rw [parseLoop_item n p ht hl hv] at hm
    refine ih (fun t v hlookup => ?_) hm
    rcases lookup_insert_cases hlookup with ⟨rfl, rfl⟩ | ⟨-, hlookup⟩
    · exact hP t length v ht hl hv
    · exact hp t v hlookup

theorem forall_of_parseOptions {P : OptionTag → List UInt8 → Prop}
    (hP : ∀ tag length value, Tagged tag → ¬ IllegalLength tag length →
      value.length = length.toNat → P tag value) {buffer : List UInt8} {m : Options}
    (h : parseOptions buffer = .ok m) : ∀ tag value, m.lookup tag = some value → P tag value := by
  have hempty : ∀ tag value, (∅ : Options).lookup tag = some value → P tag value :=
    fun tag value ht => by simp at ht
  unfold parseOptions at h
  split_ifs at h
  · rcases contained_or_outOfBounds buffer.length ∅ buffer with hc | hc
    · exact hc.forall_of_parseLoop hP hempty h
    · rw [hc] at h
      cases h
  · exact Except.ok.inj h ▸ hempty

/-- **The parser checks lengths.** -/
theorem legalLengths_of_parseOptions {buffer : List UInt8} {m : Options}
    (h : parseOptions buffer = .ok m) : LegalLengths m := by
  refine forall_of_parseOptions (fun tag length value _ hl hv legal hlegal => ?_) h
  have heq : legal = length := by
    by_contra hne
    exact hl ⟨legal, hlegal, hne⟩
  rw [hv, heq]

lemma length_le_of_parseOptions {buffer : List UInt8} {m : Options}
    (h : parseOptions buffer = .ok m) {tag : OptionTag} {value : List UInt8}
    (hl : m.lookup tag = some value) : value.length ≤ 255 := by
  refine forall_of_parseOptions (P := fun _ value => value.length ≤ 255)
    (fun _ length value _ _ hv => ?_) h tag value hl
  have hlt := length.toNat_lt
  omega

/-- The areas that are pads and complete items up to an `OPTIONS_END`, with lengths that may
be legal or not. -/
inductive Terminated : List UInt8 → Prop
  | stop (bytes : List UInt8) : Terminated (OPTIONS_END :: bytes)
  | pad {bytes : List UInt8} (h : Terminated bytes) : Terminated (PAD :: bytes)
  | item {tag : OptionTag} {length : UInt8} {value bytes : List UInt8} (ht : Tagged tag)
    (hv : value.length = length.toNat) (h : Terminated bytes) :
    Terminated (tag :: length :: (value ++ bytes))

lemma Terminated.contained {bytes : List UInt8} (h : Terminated bytes) : Contained bytes := by
  induction h with
  | stop bytes => exact .stop bytes
  | pad h ih => exact .pad ih
  | @item tag length value bytes ht hv h ih =>
    by_cases hl : IllegalLength tag length
    · exact .illegal ht hl _
    · exact .item ht hl hv ih

/-! ### The round trip -/

/-- The options that have a wire form: tags of items, and values whose length fits the
length byte and the predefined length of the tag. -/
def Wireable (m : Options) : Prop :=
  ∀ tag value, m.lookup tag = some value → Tagged tag ∧ value.length ≤ 255 ∧
    ∀ legal ∈ predefinedOptionLengths tag, value.length = legal.toNat

lemma parseLoop_encodeOption {entry : (_ : OptionTag) × List UInt8} (ht : Tagged entry.1)
    (hv : entry.2.length ≤ 255)
    (hl : ∀ legal ∈ predefinedOptionLengths entry.1, entry.2.length = legal.toNat)
    (bytes : List UInt8) : parseLoop n (encodeOption entry ++ bytes) p =
      parseLoop n bytes (p.insert entry.1 entry.2) := by
  have hlen : entry.2.length = (UInt8.ofNat entry.2.length).toNat := by
    simp only [UInt8.toNat_ofNat']
    omega
  refine parseLoop_item n p ht ?_ hlen bytes
  rintro ⟨legal, hmem, hne⟩
  exact hne (UInt8.toNat_inj.mp ((hl legal hmem).symm.trans hlen))

/-- The options after the entries have been read one by one. -/
def readBack (entries : List ((_ : OptionTag) × List UInt8)) (p : Options) : Options :=
  entries.foldl (fun p e => p.insert e.1 e.2) p

lemma parseLoop_encodeOptions {entries : List ((_ : OptionTag) × List UInt8)}
    (h : ∀ e ∈ entries, Tagged e.1 ∧ e.2.length ≤ 255 ∧
      ∀ legal ∈ predefinedOptionLengths e.1, e.2.length = legal.toNat) (suffix : List UInt8) :
    parseLoop n (encodeOptions entries ++ suffix) p = .ok (readBack entries p) := by
  induction entries generalizing p with
  | nil => exact parseLoop_end n p suffix
  | cons e entries ih =>
    obtain ⟨ht, hv, hl⟩ := h e (by simp)
    have hcons : encodeOptions (e :: entries) ++ suffix =
        encodeOption e ++ (encodeOptions entries ++ suffix) := by
      simp [encodeOptions]
    rw [hcons, parseLoop_encodeOption n p ht hv hl, ih _ fun e he => h e (by simp [he])]
    rfl

lemma lookup_readBack {entries : List ((_ : OptionTag) × List UInt8)}
    (hk : entries.NodupKeys) (tag : OptionTag) (value : List UInt8) :
    (readBack entries p).lookup tag = some value ↔
      ⟨tag, value⟩ ∈ entries ∨ tag ∉ entries.keys ∧ p.lookup tag = some value := by
  induction entries generalizing p with
  | nil => simp [readBack]
  | cons e entries ih =>
    obtain ⟨t, v⟩ := e
    obtain ⟨hnot, hks⟩ := List.nodupKeys_cons.mp hk
    rw [readBack, List.foldl_cons, ← readBack, ih _ hks]
    by_cases htag : tag = t
    · subst htag
      have hmem : ∀ w, (⟨tag, w⟩ : (_ : OptionTag) × List UInt8) ∉ entries := by
        intro w hw
        have htag := List.mem_keys_of_mem hw
        exact hnot htag
      simp [hmem, hnot, eq_comm]
    · simp [Finmap.lookup_insert_of_ne _ htag, htag]

lemma mem_iff_lookup {entries : List ((_ : OptionTag) × List UInt8)} {m : Options}
    (hi : Iterates entries m) (tag : OptionTag) (value : List UInt8) :
    (⟨tag, value⟩ : (_ : OptionTag) × List UInt8) ∈ entries ↔ m.lookup tag = some value := by
  rw [Finmap.lookup_eq_some_iff, ← hi, Multiset.mem_coe]

/-- **The parser inverts the encoder**, whatever the order the map is visited in and whatever
follows the encoding. -/
theorem parseOptions_toByteVector (host : ByteOrder) (d : DhcpDatagram)
    (entries : List ((_ : OptionTag) × List UInt8)) (suffix : List UInt8)
    (hi : Iterates entries d.options) (hw : Wireable d.options) :
    parseOptions ((d.toByteVector host entries).drop 240 ++ suffix) = .ok d.options := by
  have hmem := mem_iff_lookup hi
  have hk : entries.NodupKeys := by
    have h := d.options.nodupKeys
    rw [← hi] at h
    exact Multiset.coe_nodupKeys.mp h
  have harea : (d.toByteVector host entries).drop 240 = encodeOptions entries := by
    rw [toByteVector, ← length_encodeHeader host d, List.drop_left]
  rw [harea, parseOptions, if_pos (by simp [encodeOptions]), parseLoop_encodeOptions]
  · congr 1
    refine Finmap.ext_lookup fun tag => Option.ext fun value => ?_
    rw [lookup_readBack _ hk, hmem]
    simp
  · exact fun e he => hw e.1 e.2 ((hmem e.1 e.2).mp he)

/-- A message type and a value made of a pad and an end byte. -/
def sampleEntries : List ((_ : OptionTag) × List UInt8) := [⟨12, [0, 255]⟩, ⟨53, [1]⟩]

def sampleDatagram : DhcpDatagram :=
  { blank with
    options := ((∅ : Options).insert DHCP_MESSAGE_TYPE [1]).insert (12 : OptionTag) [0, 255] }

lemma iterates_sample : Iterates sampleEntries sampleDatagram.options := by
  show Multiset.ofList sampleEntries = sampleDatagram.options.entries
  decide +kernel

lemma wireable_sample : Wireable sampleDatagram.options := by
  have hw : ∀ e ∈ sampleEntries, Tagged e.1 ∧ e.2.length ≤ 255 ∧
      ∀ legal ∈ predefinedOptionLengths e.1, e.2.length = legal.toNat := by
    have h12 : predefinedOptionLengths 12 = none := by decide
    have h53 : predefinedOptionLengths 53 = some 1 := by decide
    simp [sampleEntries, Tagged, PAD, OPTIONS_END, h12, h53]
  exact fun tag value hl => hw ⟨tag, value⟩ ((mem_iff_lookup iterates_sample tag value).mpr hl)

theorem parseOptions_toByteVector_sample :
    parseOptions ((sampleDatagram.toByteVector .little sampleEntries).drop 240 ++ [255, 7]) =
      .ok sampleDatagram.options :=
  parseOptions_toByteVector .little sampleDatagram sampleEntries [255, 7] iterates_sample
    wireable_sample

end TinyDhcpd.OptionArea
