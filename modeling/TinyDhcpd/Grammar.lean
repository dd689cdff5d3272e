import TinyDhcpd.OptionArea

/-!
The options areas that are well formed, and what `parse_options` makes of them.

An area is written down as the list of its elements, pads and items, in front of the first
`OPTIONS_END`. The parser sees nothing of it but the items: it stops at the first one with an
illegal length, and otherwise keeps the last value of each tag.
-/

namespace TinyDhcpd.Grammar

open Bytes OptionTag DhcpDatagram OptionArea

structure Item where
  tag : OptionTag
  value : List UInt8
  tagged : Tagged tag
  short : value.length ≤ 255

inductive Element
  | pad
  | item (i : Item)

def Element.bytes : Element → List UInt8
  | pad => [PAD]
  | item i => i.tag :: UInt8.ofNat i.value.length :: i.value

def Element.item? : Element → Option Item
  | pad => none
  | item i => some i

/-- The area made of the elements, an `OPTIONS_END` and whatever follows it. -/
def area (elements : List Element) (rest : List UInt8) : List UInt8 :=
  elements.flatMap Element.bytes ++ OPTIONS_END :: rest

def items (elements : List Element) : List Item := elements.filterMap Element.item?

/-- The value of the last item with the tag. -/
def lastValue (is : List Item) (tag : OptionTag) : Option (List UInt8) :=
  ((is.filter fun i => i.tag = tag).getLast?).map Item.value

/-- An item that is refused: an address or a time offset of other than four bytes, or a message
type of other than one. -/
def Misfit (i : Item) : Prop :=
  (i.tag = SUBNET_MASK ∨ i.tag = TIME_OFFSET ∨ i.tag = REQUESTED_IP_ADDRESS) ∧
      i.value.length ≠ 4 ∨
    i.tag = DHCP_MESSAGE_TYPE ∧ i.value.length ≠ 1

/-! ### The items one after another -/

/-- What the parser does with the items. -/
def readItems : List Item → Options → Except Fault Options
  | [], parsed => .ok parsed
  | i :: is, parsed =>
    if IllegalLength i.tag (UInt8.ofNat i.value.length) then
      .error (.invalidArgument (lengthMessage i.tag (UInt8.ofNat i.value.length)))
    else readItems is (parsed.insert i.tag i.value)

lemma Item.toNat_length (i : Item) : i.value.length = (UInt8.ofNat i.value.length).toNat := by
  have h := i.short
  rw [UInt8.toNat_ofNat']
  omega

lemma parseLoop_area (n : ℕ) (elements : List Element) (rest : List UInt8) (p : Options) :
    parseLoop n (area elements rest) p = readItems (items elements) p := by
  induction elements generalizing p with
  | nil => exact parseLoop_end n p rest
  | cons e elements ih =>
    have hcons : area (e :: elements) rest = e.bytes ++ area elements rest := by
      simp [area]
    rw [hcons]
    cases e with
    | pad => exact (parseLoop_pad n p _).trans (ih p)
    | item i =>
      show parseLoop n (i.tag :: UInt8.ofNat i.value.length :: (i.value ++ area elements rest)) p =
        readItems (i :: items elements) p
      rw [readItems]
      split_ifs with hl
      · exact parseLoop_illegal n p i.tagged hl _
      · rw [parseLoop_item n p i.tagged hl i.toNat_length, ih]

lemma parseOptions_area (elements : List Element) (rest : List UInt8) :
    parseOptions (area elements rest) = readItems (items elements) ∅ := by
  have hpos : 0 < (area elements rest).length := by simp [area]
  rw [parseOptions, if_pos hpos, parseLoop_area]

lemma illegalLength_iff (i : Item) :
    IllegalLength i.tag (UInt8.ofNat i.value.length) ↔ Misfit i := by
  have hlen := i.toNat_length
  have hne (legal : UInt8) :
      legal ≠ UInt8.ofNat i.value.length ↔ i.value.length ≠ legal.toNat := by
    rw [ne_comm, ne_eq, ne_eq, ← UInt8.toNat_inj, ← hlen]
  obtain ⟨hpad, hend⟩ := i.tagged
  unfold IllegalLength Misfit predefinedOptionLengths
  simp only [hpad, hend, if_false]
  split_ifs with h53 h1 h2 h50
  · simp [h53, hne, DHCP_MESSAGE_TYPE, SUBNET_MASK, TIME_OFFSET, REQUESTED_IP_ADDRESS]
  · simp [h1, hne, SUBNET_MASK, DHCP_MESSAGE_TYPE]
  · simp [h2, hne, TIME_OFFSET, DHCP_MESSAGE_TYPE]
  · simp [h50, hne, REQUESTED_IP_ADDRESS, DHCP_MESSAGE_TYPE]
  · simp [h1, h2, h50, h53]

/-! ### What is parsed -/

lemma lastValue_cons (i : Item) (is : List Item) (tag : OptionTag) :
    lastValue (i :: is) tag =
      (lastValue is tag).or (if tag = i.tag then some i.value else none) := by
  unfold lastValue
  by_cases ht : tag = i.tag
  · rw [List.filter_cons_of_pos (by simpa using ht.symm), List.getLast?_cons, if_pos ht]
    cases (is.filter fun i => i.tag = tag).getLast? with
    | none => rfl
    | some last => rfl
  · rw [List.filter_cons_of_neg (by simpa using Ne.symm ht), if_neg ht, Option.or_none]

/-- **The items are read** unless one of them is a misfit. -/
theorem readItems_cases (is : List Item) (p : Options) :
    (∃ i ∈ is, Misfit i) ∧ (∃ what, readItems is p = .error (.invalidArgument what)) ∨
      (∀ i ∈ is, ¬ Misfit i) ∧ ∃ m, readItems is p = .ok m ∧
        ∀ tag, m.lookup tag = (lastValue is tag).or (p.lookup tag) := by
  induction is generalizing p with
  | nil => exact Or.inr ⟨by simp, p, rfl, fun tag => rfl⟩
  | cons i is ih =>
    rw [readItems]
    by_cases hi : Misfit i
    · rw [if_pos ((illegalLength_iff i).mpr hi)]
      exact Or.inl ⟨⟨i, by simp, hi⟩, _, rfl⟩
    · rw [if_neg fun hl => hi ((illegalLength_iff i).mp hl)]
      rcases ih (p.insert i.tag i.value) with ⟨⟨j, hj, hm⟩, hw⟩ | ⟨hn, m, hm, hlookup⟩
      · exact Or.inl ⟨⟨j, List.mem_cons_of_mem i hj, hm⟩, hw⟩
      · refine Or.inr ⟨List.forall_mem_cons.mpr ⟨hi, hn⟩, m, hm, fun tag => ?_⟩
        rw [hlookup, lastValue_cons, Option.or_assoc]
        congr 1
        by_cases ht : tag = i.tag
        · rw [ht, Finmap.lookup_insert, if_pos rfl, Option.some_or]
        · rw [Finmap.lookup_insert_of_ne _ ht, if_neg ht, Option.none_or]

/-- **The grammar of options areas.** An area is refused exactly if an item in front of its end
is a misfit; otherwise each tag has the value of its last item and no tag is there that has
none. Pads and what follows the end change neither the one nor the other. -/
theorem parseOptions_elements (elements : List Element) (rest : List UInt8) :
    ((∃ what, parseOptions (area elements rest) = .error (.invalidArgument what)) ↔
        ∃ i ∈ items elements, Misfit i) ∧
      ((∀ i ∈ items elements, ¬ Misfit i) → ∃ m, parseOptions (area elements rest) = .ok m ∧
        ∀ tag, m.lookup tag = lastValue (items elements) tag) ∧
      ∀ elements' rest', items elements' = items elements →
        parseOptions (area elements' rest') = parseOptions (area elements rest) := by
  have hindep : ∀ elements' rest', items elements' = items elements →
      parseOptions (area elements' rest') = parseOptions (area elements rest) := by
    intro elements' rest' heq
    rw [parseOptions_area, parseOptions_area, heq]
  rw [parseOptions_area] at hindep ⊢
  rcases readItems_cases (items elements) ∅ with ⟨hmis, hw⟩ | ⟨hfit, m, hm, hlookup⟩
  · refine ⟨iff_of_true hw hmis, fun hfit => ?_, hindep⟩
    obtain ⟨i, hi, hmi⟩ := hmis
    exact absurd hmi (hfit i hi)
  · refine ⟨iff_of_false ?_ ?_, fun _ => ⟨m, hm, fun tag => ?_⟩, hindep⟩
    · rintro ⟨what, hw⟩
      rw [hm] at hw
      cases hw
    · rintro ⟨i, hi, hmi⟩
      exact hfit i hi hmi
    · rw [hlookup, Finmap.lookup_empty, Option.or_none]

end TinyDhcpd.Grammar
