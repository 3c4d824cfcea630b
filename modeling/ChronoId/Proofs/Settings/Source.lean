/-
# Settings that were read

Members of an object make settings if each known one has its type, and if the
fields that they are converted to, with defaults for those that are missing,
lie in their ranges. The types are a matter of the single member, so the order
of the members does not count; and as the fields then have types that can be
tested, a fault is always one of a setting.

Key definitions: `SettingsFields.Given`, `SettingsFields.Converts`,
`SettingsFields.Typed`, `SettingsFields.InRange`.
Key theorems: `SettingsFields.setAll_eq_ok_iff`, `SettingsFields.Typed.check_eq_ok_iff`,
`Settings.load_members`.
-/
import ChronoId.Proofs.Results
import ChronoId.Settings.Source
import Mathlib.Tactic.MkIffOfInductiveProp
import Mathlib.Tactic.Simproc.ExistsAndEq
import Mathlib.Tactic.SplitIfs

namespace ChronoId
namespace SettingsFields

/-! ### What a member may be, and what it means -/

/-- A text means itself. -/
inductive IsText : Value → Value → Prop
  | text (s : String) : IsText (.text s) (.text s)

/-- An integer means itself. -/
inductive IsInteger : Value → Value → Prop
  | int (i : Int) : IsInteger (.int i) (.int i)

/-- An integer means itself, and so does null. -/
inductive IsIntegerOrNull : Value → Value → Prop
  | null : IsIntegerOrNull .null .null
  | int (i : Int) : IsIntegerOrNull (.int i) (.int i)

/-- A name means its algorithm. -/
inductive IsAlgorithm : Value → Algorithm → Prop
  | luhn : IsAlgorithm (.text "luhn") .luhn
  | isin : IsAlgorithm (.text "isin") .isin
  | verhoeff : IsAlgorithm (.text "verhoeff") .verhoeff
  | sha256 : IsAlgorithm (.text "sha256") .sha256

/-- A date-time means itself, a text means the date-time that it holds, and null
means that there is none. -/
inductive IsEpoch : Value → Value → Prop
  | null : IsEpoch .null .null
  | moment (t : DateTime) : IsEpoch (.moment t) (.moment t)
  | text {s : String} {t : DateTime} (h : Rfc3339.read? s.toList = some t) :
    IsEpoch (.text s) (.moment t)

section Members

variable {field : String} {v w : Value}

theorem textOf_eq_ok_iff : textOf field v = .ok w ↔ IsText v w := by
  constructor
  · intro h
    cases v <;> cases h
    exact .text _
  · rintro ⟨s⟩
    rfl

theorem intOf_eq_ok_iff : intOf field v = .ok w ↔ IsInteger v w := by
  constructor
  · intro h
    cases v <;> cases h
    exact .int _
  · rintro ⟨i⟩
    rfl

theorem intOrNullOf_eq_ok_iff : intOrNullOf field v = .ok w ↔ IsIntegerOrNull v w := by
  constructor
  · intro h
    cases v <;> cases h
    · exact .null
    · exact .int _
  · rintro (_ | ⟨i⟩) <;> rfl

theorem algorithmOf_eq_ok_iff {a : Algorithm} : algorithmOf field v = .ok a ↔ IsAlgorithm v a := by
  constructor
  · intro h
    unfold algorithmOf at h
    split at h
    · next name =>
      split at h
      · next b hname =>
        cases h
        have hb := List.find?_some hname
        rw [decide_eq_true_eq] at hb
        subst hb
        cases a
        · exact .luhn
        · exact .isin
        · exact .verhoeff
        · exact .sha256
      · cases h
    · cases h
  · rintro (_ | _ | _ | _) <;> rfl

theorem epochOf_eq_ok_iff : epochOf field v = .ok w ↔ IsEpoch v w := by
  constructor
  · intro h
    unfold epochOf at h
    split at h
    · cases h
      exact .null
    · cases h
      exact .moment _
    · split at h
      · next hread =>
        cases h
        exact .text hread
      · cases h
    · cases h
  · rintro (_ | ⟨t⟩ | ⟨h⟩)
    · rfl
    · rfl
    · rw [epochOf, h]

end Members

/-! ### Members and fields -/

/-- What is given for a field, if anything is: otherwise it stays as it was. -/
def Given {α : Type} (Means : Value → α → Prop) (members : List (String × Value)) (field : String)
    (old new : α) : Prop :=
  match members.lookup field with
  | some v => Means v new
  | none => old = new

/-- Each field of `g` is what the members say, and otherwise as in `f`. -/
@[mk_iff]
structure Converts (members : List (String × Value)) (f g : SettingsFields) : Prop where
  alphabet : Given IsText members "alphabet" f.alphabet g.alphabet
  timestampWidth : Given IsInteger members "timestamp_width" f.timestampWidth g.timestampWidth
  subsecondBits : Given IsInteger members "subsecond_bits" f.subsecondBits g.subsecondBits
  roundingDigits : Given IsInteger members "rounding_digits" f.roundingDigits g.roundingDigits
  checkDigitAlphabet :
    Given IsText members "check_digit_alphabet" f.checkDigitAlphabet g.checkDigitAlphabet
  checkDigitAlgorithm :
    Given IsAlgorithm members "check_digit_algorithm" f.checkDigitAlgorithm g.checkDigitAlgorithm
  customEpoch : Given IsEpoch members "custom_epoch" f.customEpoch g.customEpoch
  maxTimestampDelta :
    Given IsIntegerOrNull members "max_timestamp_delta_ms" f.maxTimestampDelta g.maxTimestampDelta

section Given

variable {α : Type} {Means : Value → α → Prop} {field key : String} {v : Value}
  {members : List (String × Value)} {old new : α}

theorem given_nil : Given Means [] field old new ↔ old = new := Iff.rfl

theorem given_cons_self : Given Means ((field, v) :: members) field old new ↔ Means v new := by
  rw [Given, List.lookup_cons_self]

theorem given_cons_of_ne (h : field ≠ key) :
    Given Means ((key, v) :: members) field old new ↔ Given Means members field old new := by
  rw [Given, List.lookup_cons, beq_eq_false_iff_ne.mpr h, Given]

theorem given_singleton : Given Means [(key, v)] field old new ↔
    if key = field then Means v new else old = new := by
  by_cases h : key = field
  · rw [if_pos h, h, given_cons_self]
  · rw [if_neg h, given_cons_of_ne (Ne.symm h), given_nil]

theorem given_of_notMem (h : field ∉ members.map Prod.fst) :
    Given Means members field old new ↔ old = new := by
  have hlookup : members.lookup field = none := by
    rw [List.lookup_eq_none_iff]
    intro p hp
    exact bne_iff_ne.mpr fun heq => h (heq ▸ List.mem_map_of_mem hp)
  rw [Given, hlookup]

/-- A field is given by the first member or by the others, not by both. -/
theorem given_cons (h : key ∉ members.map Prod.fst) :
    Given Means ((key, v) :: members) field old new ↔
      ∃ between, Given Means [(key, v)] field old between ∧
        Given Means members field between new := by
  by_cases hfield : field = key
  · subst hfield
    simp only [given_cons_self, given_of_notMem h]
    exact ⟨fun hv => ⟨new, hv, rfl⟩, fun ⟨_, hv, hnew⟩ => hnew ▸ hv⟩
  · simp only [given_cons_of_ne hfield, given_nil]
    exact ⟨fun hnew => ⟨old, rfl, hnew⟩, fun ⟨_, hold, hnew⟩ => hold.symm ▸ hnew⟩

end Given

theorem converts_cons {key : String} {v : Value} {members : List (String × Value)}
    {f g : SettingsFields} (h : key ∉ members.map Prod.fst) :
    Converts ((key, v) :: members) f g ↔
      ∃ f', Converts [(key, v)] f f' ∧ Converts members f' g := by
  constructor
  · rintro ⟨h1, h2, h3, h4, h5, h6, h7, h8⟩
    obtain ⟨alphabet, h1, h1'⟩ := (given_cons h).mp h1
    obtain ⟨width, h2, h2'⟩ := (given_cons h).mp h2
    obtain ⟨bits, h3, h3'⟩ := (given_cons h).mp h3
    obtain ⟨digits, h4, h4'⟩ := (given_cons h).mp h4
    obtain ⟨target, h5, h5'⟩ := (given_cons h).mp h5
    obtain ⟨algorithm, h6, h6'⟩ := (given_cons h).mp h6
    obtain ⟨epoch, h7, h7'⟩ := (given_cons h).mp h7
    obtain ⟨delta, h8, h8'⟩ := (given_cons h).mp h8
    exact ⟨⟨alphabet, width, bits, digits, target, algorithm, epoch, delta⟩,
      ⟨h1, h2, h3, h4, h5, h6, h7, h8⟩, ⟨h1', h2', h3', h4', h5', h6', h7', h8'⟩⟩
  · rintro ⟨f', ⟨h1, h2, h3, h4, h5, h6, h7, h8⟩, ⟨h1', h2', h3', h4', h5', h6', h7', h8'⟩⟩
    exact ⟨(given_cons h).mpr ⟨_, h1, h1'⟩, (given_cons h).mpr ⟨_, h2, h2'⟩,
      (given_cons h).mpr ⟨_, h3, h3'⟩, (given_cons h).mpr ⟨_, h4, h4'⟩,
      (given_cons h).mpr ⟨_, h5, h5'⟩, (given_cons h).mpr ⟨_, h6, h6'⟩,
      (given_cons h).mpr ⟨_, h7, h7'⟩, (given_cons h).mpr ⟨_, h8, h8'⟩⟩

attribute [ext] SettingsFields

/-- A member is set exactly if it has its type. -/
theorem set_eq_ok_iff {field : String} {v : Value} {f g : SettingsFields} :
    f.set (field, v) = .ok g ↔ Converts [(field, v)] f g := by
  rw [converts_iff]
  unfold set
  simp only
  split_ifs
  all_goals
    simp [*, given_singleton, bind_eq_ok_iff, textOf_eq_ok_iff, intOf_eq_ok_iff,
      intOrNullOf_eq_ok_iff, algorithmOf_eq_ok_iff, epochOf_eq_ok_iff, pure, Except.pure,
      SettingsFields.ext_iff, and_left_comm]

theorem setAll_eq_ok_iff {members : List (String × Value)} {f g : SettingsFields}
    (h : (members.map Prod.fst).Nodup) : setAll f members = .ok g ↔ Converts members f g := by
  induction members generalizing f with
  | nil => simp [setAll, converts_iff, given_nil, SettingsFields.ext_iff]
  | cons m members ih =>
    obtain ⟨key, v⟩ := m
    -- no later member has this key, and so none sets the field again
    rw [List.map_cons, List.nodup_cons] at h
    rw [setAll, bind_eq_ok_iff, converts_cons h.1]
    simp only [set_eq_ok_iff, ih h.2]

/-! ### Fields of the declared types -/

/-- Fields that have their types. -/
structure Typed where
  alphabet : String
  timestampWidth : Int
  subsecondBits : Int
  roundingDigits : Int
  checkDigitAlphabet : String
  checkDigitAlgorithm : Algorithm
  customEpoch : Option DateTime
  maxTimestampDelta : Option Int

namespace Typed

/-- Fields that have their types, among all fields. -/
def fields (t : Typed) : SettingsFields where
  alphabet := .text t.alphabet
  timestampWidth := .int t.timestampWidth
  subsecondBits := .int t.subsecondBits
  roundingDigits := .int t.roundingDigits
  checkDigitAlphabet := .text t.checkDigitAlphabet
  checkDigitAlgorithm := t.checkDigitAlgorithm
  customEpoch := t.customEpoch.elim .null .moment
  maxTimestampDelta := t.maxTimestampDelta.elim .null .int

/-- What settings ask of fields that have their types. -/
structure InRange (t : Typed) : Prop where
  timestampWidth : 0 < t.timestampWidth
  subsecondBits : 0 ≤ t.subsecondBits ∧ t.subsecondBits ≤ maxSubsecondBits
  roundingDigits : 0 < t.subsecondBits → 1 ≤ t.roundingDigits ∧ t.roundingDigits ≤ 9
  checkDigitAlphabet_ne : t.checkDigitAlphabet ≠ ""
  checkDigitAlphabet_isDigit : ∀ c ∈ t.checkDigitAlphabet.toList, c.isDigit = true
  checkDigitAlphabet_nodup : t.checkDigitAlphabet.toList.Nodup
  maxTimestampDelta : ∀ d ∈ t.maxTimestampDelta, 0 ≤ d

end Typed

section Types

variable {members : List (String × Value)} {field : String} {w : Value}

theorem text_of_given {s : String} (h : Given IsText members field (.text s) w) :
    ∃ s', w = .text s' := by
  unfold Given at h
  split at h
  · cases h
    exact ⟨_, rfl⟩
  · exact ⟨s, h.symm⟩

theorem int_of_given {i : Int} (h : Given IsInteger members field (.int i) w) :
    ∃ i', w = .int i' := by
  unfold Given at h
  split at h
  · cases h
    exact ⟨_, rfl⟩
  · exact ⟨i, h.symm⟩

theorem epoch_of_given {t : Option DateTime}
    (h : Given IsEpoch members field (t.elim .null .moment) w) :
    ∃ t' : Option DateTime, w = t'.elim .null .moment := by
  unfold Given at h
  split at h
  · cases h with
    | null => exact ⟨none, rfl⟩
    | moment t => exact ⟨some t, rfl⟩
    | text _ => exact ⟨some _, rfl⟩
  · exact ⟨t, h.symm⟩

theorem delta_of_given {d : Option Int}
    (h : Given IsIntegerOrNull members field (d.elim .null .int) w) :
    ∃ d' : Option Int, w = d'.elim .null .int := by
  unfold Given at h
  split at h
  · cases h with
    | null => exact ⟨none, rfl⟩
    | int d => exact ⟨some d, rfl⟩
  · exact ⟨d, h.symm⟩

/-- What members of the right types make of fields has its types. -/
theorem Converts.typed {t : Typed} {g : SettingsFields} (h : Converts members t.fields g) :
    ∃ t' : Typed, g = t'.fields := by
  obtain ⟨alphabet, halphabet⟩ := text_of_given h.alphabet
  obtain ⟨width, hwidth⟩ := int_of_given h.timestampWidth
  obtain ⟨bits, hbits⟩ := int_of_given h.subsecondBits
  obtain ⟨digits, hdigits⟩ := int_of_given h.roundingDigits
  obtain ⟨target, htarget⟩ := text_of_given h.checkDigitAlphabet
  obtain ⟨epoch, hepoch⟩ := epoch_of_given h.customEpoch
  obtain ⟨delta, hdelta⟩ := delta_of_given h.maxTimestampDelta
  exact ⟨⟨alphabet, width, bits, digits, target, g.checkDigitAlgorithm, epoch, delta⟩,
    SettingsFields.ext halphabet hwidth hbits hdigits htarget rfl hepoch hdelta⟩

theorem typed_of_setAll {t : Typed} {g : SettingsFields} (h : setAll t.fields members = .ok g) :
    ∃ t' : Typed, g = t'.fields := by
  induction members generalizing t with
  | nil =>
    cases h
    exact ⟨t, rfl⟩
  | cons m members ih =>
    obtain ⟨f, hset, h⟩ := bind_eq_ok_iff.mp h
    obtain ⟨t', rfl⟩ := (set_eq_ok_iff.mp hset).typed
    exact ih h

end Types

/-! ### Ranges -/

/-- A test that passes or finds a fault. -/
def Decides (x : Except Error Unit) (P : Prop) : Prop :=
  (P ∧ x = .ok ()) ∨ (¬ P ∧ ∃ fault, x = faulty fault)

section Decides

variable {x y : Except Error Unit} {P Q : Prop}

theorem Decides.bind (hx : Decides x P) (hy : Decides y Q) :
    Decides (x >>= fun _ => y) (P ∧ Q) := by
  obtain ⟨hP, rfl⟩ | ⟨hP, fault, rfl⟩ := hx
  · obtain ⟨hQ, rfl⟩ | ⟨hQ, fault, rfl⟩ := hy
    · exact Or.inl ⟨⟨hP, hQ⟩, rfl⟩
    · exact Or.inr ⟨fun h => hQ h.2, fault, rfl⟩
  · exact Or.inr ⟨fun h => hP h.1, fault, rfl⟩

theorem Decides.eq_ok_iff (h : Decides x P) : x = .ok () ↔ P := by
  obtain ⟨hP, rfl⟩ | ⟨hP, fault, rfl⟩ := h
  · exact ⟨fun _ => hP, fun _ => rfl⟩
  · exact ⟨nofun, fun h => absurd h hP⟩

theorem Decides.congr (h : Decides x P) (hPQ : P ↔ Q) : Decides x Q := by
  rwa [propext hPQ] at h

theorem decides_ok (h : P) : Decides (.ok ()) P := Or.inl ⟨h, rfl⟩

theorem decides_faulty (fault : SettingFault) (h : ¬ P) : Decides (faulty fault) P :=
  Or.inr ⟨h, fault, rfl⟩

theorem decides_require (b : Bool) (fault : SettingFault) :
    Decides (require (some b) fault) (b = true) := by
  cases b with
  | true => exact decides_ok rfl
  | false => exact decides_faulty fault nofun

end Decides

theorem decides_checkDigits (bits digits : Int) :
    Decides (checkDigits (.int bits) (.int digits)) (0 < bits → 1 ≤ digits ∧ digits ≤ 9) := by
  unfold checkDigits
  split
  · next h =>
    refine decides_ok fun hbits => ?_
    simp only [Value.atMost?, Option.some.injEq, decide_eq_true_eq] at h
    omega
  · next h =>
    simp only [Value.atMost?, Option.some.injEq, decide_eq_true_eq] at h
    refine (decides_require _ _).congr ?_
    simp only [Bool.and_eq_true, decide_eq_true_eq]
    exact ⟨fun h _ => h, fun h' => h' (by omega)⟩

theorem decides_checkAlphabet (s : String) : Decides (checkAlphabet (.text s))
    (s ≠ "" ∧ (∀ c ∈ s.toList, c.isDigit = true) ∧ s.toList.Nodup) := by
  have hempty : s.toList.isEmpty = true ↔ s = "" := by simp
  simp only [checkAlphabet]
  split
  · next h =>
    refine decides_faulty _ fun hs => ?_
    simp only [Bool.or_eq_true, hempty, Bool.not_eq_true', Bool.eq_false_iff, ne_eq,
      List.all_eq_true] at h
    exact h.elim hs.1 fun h => h hs.2.1
  · next h =>
    simp only [Bool.or_eq_true, hempty, Bool.not_eq_true', Bool.eq_false_iff, ne_eq,
      List.all_eq_true, not_or, Classical.not_not] at h
    refine (decides_require _ _).congr ?_
    rw [Symbols.distinct_iff]
    exact ⟨fun hnodup => ⟨h.1, h.2, hnodup⟩, fun hs => hs.2.2⟩

theorem decides_checkDelta (d : Option Int) :
    Decides (checkDelta (d.elim .null .int)) (∀ i ∈ d, 0 ≤ i) := by
  cases d with
  | none => exact decides_ok nofun
  | some i => exact (decides_require _ _).congr (by simp)

/-- Fields that have their types are tested for their ranges and nothing else. -/
theorem Typed.decides_check (t : Typed) : Decides t.fields.check t.InRange := by
  have h := (decides_require (!decide (t.timestampWidth ≤ 0)) .timestampWidth).bind
    ((decides_require (decide (0 ≤ t.subsecondBits) && decide (t.subsecondBits ≤ maxSubsecondBits))
      .subsecondBits).bind ((decides_checkDigits t.subsecondBits t.roundingDigits).bind
        ((decides_checkAlphabet t.checkDigitAlphabet).bind
          (decides_checkDelta t.maxTimestampDelta))))
  refine Decides.congr h ?_
  simp only [Bool.not_eq_true', decide_eq_false_iff_not, Int.not_le, Bool.and_eq_true,
    decide_eq_true_eq]
  exact ⟨fun ⟨h1, h2, h3, ⟨h4, h5, h6⟩, h7⟩ => ⟨h1, h2, h3, h4, h5, h6, h7⟩,
    fun ⟨h1, h2, h3, h4, h5, h6, h7⟩ => ⟨h1, h2, h3, ⟨h4, h5, h6⟩, h7⟩⟩

end SettingsFields

namespace Settings

open SettingsFields

theorem ofFields_eq_ok_iff {f : SettingsFields} {s : Settings} :
    ofFields f = .ok s ↔ s.toSettingsFields = f := by
  unfold ofFields
  split
  · exact ⟨fun h => by cases h; rfl, fun h => by cases s; cases h; rfl⟩
  · next e he =>
    refine ⟨nofun, fun h => ?_⟩
    have hs := s.accepted
    rw [h, he] at hs
    cases hs

theorem ofFields_of_error {f : SettingsFields} {e : Error} (h : f.check = .error e) :
    ofFields f = .error e := by
  unfold ofFields
  split
  · next h' =>
    rw [h] at h'
    cases h'
  · next h' =>
    rw [h] at h'
    rw [Except.error.inj h']

theorem ofMembers_eq_ok_iff {members : List (String × Value)} {s : Settings} :
    ofMembers members = .ok s ↔ ∃ f, setAll {} members = .ok f ∧ ofFields f = .ok s := by
  unfold ofMembers
  cases setAll {} members with
  | error fault => exact ⟨nofun, fun ⟨_, h, _⟩ => nomatch h⟩
  | ok f =>
    simp only [Except.ok.injEq, exists_eq_left']
    cases ofFields f with
    | error e => exact ⟨nofun, nofun⟩
    | ok s' => exact Iff.rfl

/-- The defaults, with their types. -/
def defaultTyped : Typed where
  alphabet := Numeral.crockford.alphabet
  timestampWidth := 9
  subsecondBits := 11
  roundingDigits := 3
  checkDigitAlphabet := "0123456789"
  checkDigitAlgorithm := .verhoeff
  customEpoch := none
  maxTimestampDelta := none

/-- Settings that have their types lie in their ranges. -/
theorem inRange_of_eq_fields {s : Settings} {t : Typed} (h : s.toSettingsFields = t.fields) :
    t.InRange :=
  t.decides_check.eq_ok_iff.mp (h ▸ s.accepted)

/-- Settings that were read have their types, and nothing else is wrong about them
than a fault of a setting. -/
theorem ofMembers_cases (members : List (String × Value)) :
    (∃ (s : Settings) (t : Typed), s.toSettingsFields = t.fields ∧ ofMembers members = .ok s) ∨
      ∃ fault, ofMembers members = .error (.configuration (.settings fault)) := by
  cases hset : setAll {} members with
  | error fault => exact Or.inr ⟨fault, by rw [ofMembers, hset]⟩
  | ok f =>
    obtain ⟨t, rfl⟩ := typed_of_setAll (t := defaultTyped) hset
    obtain ⟨-, hcheck⟩ | ⟨-, fault, hcheck⟩ := t.decides_check
    · exact Or.inl ⟨⟨t.fields, hcheck⟩, t, rfl,
        ofMembers_eq_ok_iff.mpr ⟨t.fields, hset, ofFields_eq_ok_iff.mpr rfl⟩⟩
    · refine Or.inr ⟨fault, ?_⟩
      rw [ofMembers, hset]
      show (ofFields t.fields).mapError Error.ofRead = _
      rw [ofFields_of_error hcheck]
      rfl

/-- Reading the members of a mapping is converting them and then making settings of
the fields, and the settings have just these fields; whatever is wrong about the
members is reported as a fault of the settings. -/
theorem load_members {members : List (String × Value)} (h : (members.map Prod.fst).Nodup) :
    (∀ s, load (.members members) = .ok s ↔
      ∃ f, Converts members {} f ∧ ofFields f = .ok s ∧ s.toSettingsFields = f) ∧
    ((∀ s, load (.members members) ≠ .ok s) →
      ∃ fault, load (.members members) = .error (.configuration (.settings fault))) ∧
    ∀ s, load (.members members) = .ok s →
      ∃ t : Typed, s.toSettingsFields = t.fields ∧ t.InRange := by
  refine ⟨fun s => ?_, fun hnone => ?_, fun s hs => ?_⟩
  · simp only [load, ofMembers_eq_ok_iff, setAll_eq_ok_iff h, ofFields_eq_ok_iff, and_self]
  · obtain ⟨s, t, -, hs⟩ | hfault := ofMembers_cases members
    · exact absurd hs (hnone s)
    · exact hfault
  · obtain ⟨s', t, ht, hs'⟩ | ⟨fault, hfault⟩ := ofMembers_cases members
    · have hss' : s' = s := Except.ok.inj (hs'.symm.trans hs)
      exact ⟨t, hss' ▸ ht, inRange_of_eq_fields (hss' ▸ ht)⟩
    · exact absurd (hfault.symm.trans hs) nofun

theorem load_members_subseconds :
    let members := [("subsecond_bits", Value.int 4),
      ("custom_epoch", .text "2024-01-01T00:00:00Z"), ("comment", .null)]
    (members.map Prod.fst).Nodup ∧ (load (.members members)).isOk = true ∧
      ∀ s, load (.members members) = .ok s →
        s.subsecondBits = .int 4 ∧ s.timestampWidth = .int 9 ∧
          ∃ t : Typed, s.toSettingsFields = t.fields ∧ t.InRange := by
  intro members
  have hload := load_members (show (members.map Prod.fst).Nodup by decide)
  refine ⟨by decide, by decide +kernel, fun s hs => ⟨?_, ?_, hload.2.2 s hs⟩⟩
  all_goals obtain ⟨f, hf, -, rfl⟩ := (hload.1 s).mp hs
  · have hbits := given_cons_self.mp hf.subsecondBits
    generalize s.subsecondBits = bits at hbits ⊢
    cases hbits
    rfl
  · exact ((given_of_notMem (by decide)).mp hf.timestampWidth).symm

end Settings
end ChronoId
