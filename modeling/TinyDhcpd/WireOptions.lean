import TinyDhcpd.Config

/-!
The options group of the configuration, and the bytes it is stored as.

An address is stored as `inet_network` reads it, most significant byte first. An integer is
narrowed to 16 bits, converted to network order by `htons` and then taken apart from its most
significant byte on, so that on a little-endian host its low byte comes first. None of the values
is checked.
-/

namespace TinyDhcpd.WireOptions

open Bytes Inet OptionTag Config

/-- The octets of a dotted quad. -/
def octets (n : UInt32) : List UInt8 :=
  [UInt8.ofNat (n.toNat / 2 ^ 24), UInt8.ofNat (n.toNat / 2 ^ 16 % 256),
    UInt8.ofNat (n.toNat / 2 ^ 8 % 256), UInt8.ofNat (n.toNat % 256)]

/-- The wire encoding of a value of the options group: two bytes for a number of 16 bits, four
for a dotted quad, and those of all its elements for an array of dotted quads. -/
inductive Encodes : Setting → List UInt8 → Prop
  | int {v : ℤ} (h0 : 0 ≤ v) (h : v ≤ 65535) :
    Encodes (.int v) [UInt8.ofNat (v / 256).toNat, UInt8.ofNat (v % 256).toNat]
  | string (n : UInt32) : Encodes (.string (dottedQuad n)) (octets n)
  | array (ns : List UInt32) :
    Encodes (.array (ns.map fun n => .string (dottedQuad n))) (ns.flatMap octets)

inductive Plain : Setting → Prop
  | int (v : ℤ) : Plain (.int v)
  | string (s : List Char) : Plain (.string s)
  | array (addresses : List (List Char)) : Plain (.array (addresses.map .string))

/-- The options after the group has been read are those of its settings in wire form. A setting
without a wire form leaves the options as they were. -/
structure WireForm (members : List (String × Setting)) (old new : Options) : Prop where
  encoded : ∀ m ∈ members, ∀ tag, keyTagMapping m.1 = some tag → ∀ bytes, Encodes m.2 bytes →
    new.lookup tag = some bytes
  rejected : ∀ m ∈ members, ∀ tag, keyTagMapping m.1 = some tag → (∀ bytes, ¬ Encodes m.2 bytes) →
    new.lookup tag = old.lookup tag
  others : ∀ tag, (∀ m ∈ members, keyTagMapping m.1 ≠ some tag) → new.lookup tag = old.lookup tag

/-! ### What is stored -/

/-- What a little-endian host stores: an integer of 16 bits with its low byte first, and what
`inet_network` makes of a text. -/
def stored : Setting → List UInt8
  | .int v => [UInt8.ofNat (v % 256).toNat, UInt8.ofNat (v / 256 % 256).toNat]
  | .string s => parseIpAddress s
  | .array es => es.flatMap fun e => (e.asString.toOption.map parseIpAddress).getD []
  | _ => []

lemma toByteArray_sixteen (n : BitVec 16) :
    toByteArray n = [UInt8.ofNat (n.toNat / 256), UInt8.ofNat (n.toNat % 256)] := by
  have hn := n.isLt
  rw [toByteArray_eq]
  simp only [List.range, List.range.loop, shift, List.map_cons, List.map_nil, Nat.reduceDiv,
    Nat.reduceSub, Nat.reduceMul, Nat.reducePow, Nat.div_one]
  rw [Nat.mod_eq_of_lt (show n.toNat / 256 < 256 by omega)]

lemma toByteArray_address (n : UInt32) : toByteArray n.toBitVec = octets n := by
  have hn : n.toBitVec.toNat < 2 ^ 32 := n.toBitVec.isLt
  rw [toByteArray_eq, octets]
  simp only [List.range, List.range.loop, shift, List.map_cons, List.map_nil, Nat.reduceDiv,
    Nat.reduceSub, Nat.reduceMul, Nat.reducePow, Nat.div_one, UInt32.toNat_toBitVec] at hn ⊢
  rw [Nat.mod_eq_of_lt (show n.toNat / 16777216 < 256 by omega)]

lemma toByteArray_htons_little (v : ℤ) :
    toByteArray (htons .little (UInt16.ofNat (v % 65536).toNat)).toBitVec = stored (.int v) := by
  show toByteArray (swap _) = _
  rw [toByteArray_swap (by norm_num), toByteArray_sixteen, stored]
  have hnat : (UInt16.ofNat (v % 65536).toNat).toBitVec.toNat = (v % 65536).toNat := by
    rw [UInt16.toNat_toBitVec, UInt16.toNat_ofNat']
    omega
  rw [hnat, List.reverse_cons, List.reverse_singleton, List.singleton_append]
  have hlow : (v % 65536).toNat % 256 = (v % 256).toNat := by omega
  have hhigh : (v % 65536).toNat / 256 = (v / 256 % 256).toNat := by omega
  rw [hlow, hhigh]

lemma mapM_asString (addresses : List (List Char)) :
    (addresses.map Setting.string).mapM Setting.asString = .ok addresses := by
  induction addresses with
  | nil => rfl
  | cons a addresses ih =>
    rw [List.map_cons, List.mapM_cons, ih]
    rfl

lemma stored_array (addresses : List (List Char)) :
    stored (.array (addresses.map .string)) = addresses.flatMap parseIpAddress := by
  rw [stored, List.flatMap_map]
  rfl

lemma optionValue_eq_stored {s : Setting} (h : Plain s) :
    optionValue .little s = .ok (stored s) := by
  cases h with
  | int v => rw [optionValue, toByteArray_htons_little]
  | string s => rfl
  | array addresses =>
    rw [optionValue, mapM_asString, stored_array]
    rfl

/-! ### When it is the wire form -/

/-- An integer is the same with its two bytes exchanged. -/
def Palindromic : Setting → Prop
  | .int v => v / 256 = v % 256
  | _ => True

lemma parseIpAddress_dottedQuad (n : UInt32) : parseIpAddress (dottedQuad n) = octets n := by
  rw [parseIpAddress, inetNetwork_dottedQuad, toByteArray_address]

/-- Addresses are stored as they are encoded, integers backwards. -/
lemma stored_eq_iff {s : Setting} {bytes : List UInt8} (h : Encodes s bytes) :
    stored s = bytes ↔ Palindromic s := by
  cases h with
  | @int v h0 h =>
    have hhigh : v / 256 % 256 = v / 256 := by omega
    have hinj {a b : ℤ} (ha : 0 ≤ a ∧ a < 256) (hb : 0 ≤ b ∧ b < 256) :
        UInt8.ofNat a.toNat = UInt8.ofNat b.toNat ↔ a = b := by
      rw [← UInt8.toNat_inj, UInt8.toNat_ofNat', UInt8.toNat_ofNat']
      omega
    rw [stored, hhigh, List.cons.injEq, List.cons.injEq, hinj (by omega) (by omega),
      hinj (by omega) (by omega), Palindromic]
    exact ⟨fun h => h.1.symm, fun h => ⟨h.symm, h, rfl⟩⟩
  | string n => exact iff_of_true (parseIpAddress_dottedQuad n) trivial
  | array ns =>
    refine iff_of_true ?_ trivial
    have hmap : (ns.map fun n => Setting.string (dottedQuad n)) =
        (ns.map dottedQuad).map Setting.string := by rw [List.map_map]; rfl
    rw [hmap, stored_array, List.flatMap_map]
    exact List.flatMap_congr fun n _ => parseIpAddress_dottedQuad n

/-- The condition on a setting with a known key: it has a wire form, the same forwards and
backwards if it is an integer; or it has none, and the options already held what is stored for
it: the lower bytes of an integer, or what `inet_network` makes of an address. -/
def Faithful (old : Options) (tag : OptionTag) (s : Setting) : Prop :=
  (∃ bytes, Encodes s bytes) ∧ Palindromic s ∨
    (∀ bytes, ¬ Encodes s bytes) ∧ old.lookup tag = some (stored s)

/-! ### The group -/

/-- The options with one setting stored. -/
def store (m : Options) (setting : String × Setting) : Options :=
  match keyTagMapping setting.1 with
  | none => m
  | some tag => m.insert tag (stored setting.2)

lemma parseOption_eq_store {cfg : SubnetConfiguration} {setting : String × Setting}
    (h : Plain setting.2) :
    parseOption .little cfg setting =
      .ok { cfg with definedOptions := store cfg.definedOptions setting } := by
  unfold parseOption store
  cases keyTagMapping setting.1 with
  | none => rfl
  | some tag =>
    simp only [optionValue_eq_stored h]
    rfl

/-- **The group is stored** setting by setting. -/
theorem parseOptions_eq_store {members : List (String × Setting)} (h : ∀ m ∈ members, Plain m.2)
    (cfg : SubnetConfiguration) :
    Config.parseOptions .little (.group members) cfg =
      .ok { cfg with definedOptions := members.foldl store cfg.definedOptions } := by
  show members.foldlM (parseOption .little) cfg = _
  induction members generalizing cfg with
  | nil => rfl
  | cons m members ih =>
    obtain ⟨hm, hms⟩ := List.forall_mem_cons.mp h
    rw [List.foldlM_cons, parseOption_eq_store hm]
    exact ih hms _

lemma keyTagMapping_injective {key key' : String} {tag : OptionTag}
    (h : keyTagMapping key = some tag) (h' : keyTagMapping key' = some tag) : key = key' := by
  unfold keyTagMapping at h h'
  split_ifs at h h' with h1 h2 h3 h4 h5 h6
  · exact h1.trans h2.symm
  · exact absurd (h.trans h'.symm) (by decide)
  · exact absurd (h.trans h'.symm) (by decide)
  · exact h4.trans h6.symm

lemma lookup_store {m : Options} {setting : String × Setting} {tag : OptionTag}
    (h : keyTagMapping setting.1 ≠ some tag) : (store m setting).lookup tag = m.lookup tag := by
  unfold store
  split
  · rfl
  · rename_i t ht
    exact Finmap.lookup_insert_of_ne _ fun heq => h (heq ▸ ht)

lemma lookup_foldl_store {members : List (String × Setting)} {tag : OptionTag}
    (h : ∀ m ∈ members, keyTagMapping m.1 ≠ some tag) (old : Options) :
    (members.foldl store old).lookup tag = old.lookup tag := by
  induction members generalizing old with
  | nil => rfl
  | cons m members ih =>
    obtain ⟨hm, hms⟩ := List.forall_mem_cons.mp h
    rw [List.foldl_cons, ih hms, lookup_store hm]

lemma lookup_foldl_store_of_mem {members : List (String × Setting)}
    (hn : (members.map Prod.fst).Nodup) {m : String × Setting} (hm : m ∈ members)
    {tag : OptionTag} (ht : keyTagMapping m.1 = some tag) (old : Options) :
    (members.foldl store old).lookup tag = some (stored m.2) := by
  induction members generalizing old with
  | nil => cases hm
  | cons m' members ih =>
    rw [List.map_cons, List.nodup_cons] at hn
    rw [List.foldl_cons]
    rcases List.mem_cons.mp hm with rfl | hm
    · have hothers : ∀ m' ∈ members, keyTagMapping m'.1 ≠ some tag := by
        intro m' hm' ht'
        rw [keyTagMapping_injective ht ht'] at hn
        exact hn.1 (List.mem_map_of_mem hm')
      rw [lookup_foldl_store hothers, store, ht]
      exact Finmap.lookup_insert _
    · exact ih hn.2 hm _

lemma faithful_iff {old : Options} {tag : OptionTag} {s : Setting} :
    ((∀ bytes, Encodes s bytes → some (stored s) = some bytes) ∧
        ((∀ bytes, ¬ Encodes s bytes) → some (stored s) = old.lookup tag)) ↔
      Faithful old tag s := by
  unfold Faithful
  by_cases hs : ∃ bytes, Encodes s bytes
  · obtain ⟨bytes, hb⟩ := hs
    have hnone : ¬ ∀ bytes, ¬ Encodes s bytes := fun h => h bytes hb
    constructor
    · exact fun h => Or.inl ⟨⟨bytes, hb⟩, (stored_eq_iff hb).mp (Option.some.inj (h.1 bytes hb))⟩
    · rintro (⟨-, hp⟩ | ⟨hn, -⟩)
      · exact ⟨fun b hb' => congrArg some ((stored_eq_iff hb').mpr hp), fun h => absurd h hnone⟩
      · exact absurd hn hnone
  · have hnone : ∀ bytes, ¬ Encodes s bytes := fun bytes hb => hs ⟨bytes, hb⟩
    constructor
    · exact fun h => Or.inr ⟨hnone, (h.2 hnone).symm⟩
    · rintro (⟨hb, -⟩ | ⟨-, ho⟩)
      · exact absurd hb hs
      · exact ⟨fun b hb => absurd hb (hnone b), fun _ => ho.symm⟩

/-- **Options are stored in wire form** exactly if every setting with a known key is faithful. The
names in a group of libconfig are distinct. -/
theorem parseOptions_wireForm_iff (cfg : SubnetConfiguration) (members : List (String × Setting))
    (hplain : ∀ m ∈ members, Plain m.2) (hnames : (members.map Prod.fst).Nodup) :
    (∃ cfg', Config.parseOptions .little (.group members) cfg = .ok cfg' ∧
        WireForm members cfg.definedOptions cfg'.definedOptions) ↔
      ∀ m ∈ members, ∀ tag, keyTagMapping m.1 = some tag →
        Faithful cfg.definedOptions tag m.2 := by
  simp only [parseOptions_eq_store hplain, Except.ok.injEq, exists_eq_left']
  constructor
  · intro h m hm tag ht
    have hl := lookup_foldl_store_of_mem hnames hm ht cfg.definedOptions
    refine faithful_iff.mp ⟨fun bytes hb => ?_, fun hn => ?_⟩
    · rw [← hl, h.encoded m hm tag ht bytes hb]
    · rw [← hl, h.rejected m hm tag ht hn]
  · intro h
    refine ⟨fun m hm tag ht bytes hb => ?_, fun m hm tag ht hn => ?_,
      fun tag ht => lookup_foldl_store ht _⟩
    · rw [lookup_foldl_store_of_mem hnames hm ht]
      exact (faithful_iff.mpr (h m hm tag ht)).1 bytes hb
    · rw [lookup_foldl_store_of_mem hnames hm ht]
      exact (faithful_iff.mpr (h m hm tag ht)).2 hn

def exampleOptions : List (String × Setting) :=
  [("routers", .string "127.0.10.5".toList),
   ("domain-name-servers", .array (["8.8.8.8".toList, "1.1.1.1".toList].map .string))]

lemma plain_exampleOptions : ∀ m ∈ exampleOptions, Plain m.2 := by
  simp only [exampleOptions, List.mem_cons, List.not_mem_nil, or_false, forall_eq_or_imp, forall_eq]
  exact ⟨.string _, .array _⟩

theorem parseOptions_wireForm_iff_example :
    (∃ cfg', Config.parseOptions .little (.group exampleOptions) .zero = .ok cfg' ∧
        WireForm exampleOptions ∅ cfg'.definedOptions) ↔
      ∀ m ∈ exampleOptions, ∀ tag, keyTagMapping m.1 = some tag → Faithful ∅ tag m.2 :=
  parseOptions_wireForm_iff .zero exampleOptions plain_exampleOptions (by decide)

def threeHundred : List (String × Setting) := [("routers", .int 300)]

/-- They are stored as 44, 1. -/
theorem three_hundred_stored_backwards :
    (∀ m ∈ threeHundred, Plain m.2) ∧ (threeHundred.map Prod.fst).Nodup ∧
      ¬ ∃ cfg', Config.parseOptions .little (.group threeHundred) .zero = .ok cfg' ∧
        WireForm threeHundred ∅ cfg'.definedOptions := by
  have hplain : ∀ m ∈ threeHundred, Plain m.2 := by
    intro m hm
    rw [List.mem_singleton.mp hm]
    exact .int 300
  refine ⟨hplain, by decide, ?_⟩
  rintro ⟨cfg', hok, hw⟩
  rw [parseOptions_eq_store hplain] at hok
  obtain rfl := Except.ok.inj hok
  have hwire : Encodes (.int 300) [1, 44] := .int (by omega) (by omega)
  have hlookup := hw.encoded ("routers", .int 300) (List.mem_singleton.mpr rfl) ROUTERS
    (by decide) [1, 44] hwire
  exact absurd hlookup (by decide)

end TinyDhcpd.WireOptions
