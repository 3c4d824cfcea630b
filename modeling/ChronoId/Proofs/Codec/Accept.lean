/-
# What decodes is what is written

A text is an identifier of a codec if it is a stamp of the width, made of
symbols, with a sequence and its check digit written behind it. Decoding
accepts these texts and no others, and never fails on a text. The checks work
together here: a number can be read from many texts, and only the comparison
with the way it is written leaves one of them.

Key definitions: `Encoder.Refuses`, `Codec.Written`.
Key theorems: `Codec.decodeText_eq_ok_iff`, `Codec.decodeText_error`,
`Codec.decode_cases`, `Codec.Written.parts_eq`, `Codec.Written.unique`.
-/
import ChronoId.Proofs.Codec.Basic

namespace ChronoId

/-! ### Splitting undoes joining -/

namespace Layout

variable {layout : Layout}

theorem join_eq_ok_iff {p : Parts} {x : String} : layout.join p = .ok x ↔
    p.timestamp.length = layout.width ∧ p.sequence.isEmpty = false ∧
      x = p.timestamp ++ p.sequence := by
  unfold join
  by_cases hlen : p.timestamp.length = layout.width
  · rw [if_neg (not_not.mpr hlen)]
    cases hempty : p.sequence.isEmpty
    · rw [if_neg Bool.false_ne_true, Except.ok.injEq]
      exact ⟨fun h => ⟨hlen, rfl, h.symm⟩, fun h => h.2.2.symm⟩
    · rw [if_pos rfl]
      exact ⟨nofun, nofun⟩
  · rw [if_pos hlen]
    exact ⟨nofun, fun h => absurd h.1 hlen⟩

theorem join_error {p : Parts} {e : Error} (h : layout.join p = .error e) :
    e.isRejection = true := by
  unfold join at h
  split at h
  · cases h
    exact Error.isRejection_showing _ _
  · split at h
    · cases h
      rfl
    · cases h

/-- Behind a stamp of the width only a sequence can be missing. -/
theorem join_error_of_length {p : Parts} {e : Error} (hlen : p.timestamp.length = layout.width)
    (h : layout.join p = .error e) : e = .input .sequenceMissing := by
  rw [join, if_neg (not_not.mpr hlen)] at h
  split at h
  · exact (Except.error.inj h).symm
  · cases h

theorem isEmpty_eq_false_iff {s : String} : s.isEmpty = false ↔ s.toList ≠ [] := by
  rw [← Bool.not_eq_true, String.isEmpty_iff, ne_eq, String.toList_eq_nil_iff]

/-- A text has the parts that it is joined from. -/
theorem splitText_eq_ok_iff {x : String} {p : Parts} :
    layout.splitText x = .ok p ↔ layout.join p = .ok x := by
  rw [join_eq_ok_iff, splitText, isEmpty_eq_false_iff]
  by_cases hlen : x.toList.length ≤ layout.width
  · rw [if_pos hlen]
    refine ⟨nofun, fun ⟨hwidth, hne, hx⟩ => ?_⟩
    have := List.length_pos_of_ne_nil hne
    rw [hx, String.toList_append, List.length_append, String.length_toList, hwidth] at hlen
    omega
  · rw [if_neg hlen, Except.ok.injEq]
    constructor
    · rintro rfl
      refine ⟨?_, ?_, ?_⟩
      · rw [String.length_ofList, List.length_take]
        omega
      · rw [String.toList_ofList, ne_eq, List.drop_eq_nil_iff]
        exact hlen
      · rw [← String.ofList_append, List.take_append_drop, String.ofList_toList]
    · rintro ⟨hwidth, -, rfl⟩
      rw [String.toList_append, ← hwidth, ← String.length_toList, List.take_left, List.drop_left,
        String.ofList_toList, String.ofList_toList]

/-- A text has one pair of parts. -/
theorem join_inj {p q : Parts} {x : String} (hp : layout.join p = .ok x)
    (hq : layout.join q = .ok x) : p = q := by
  rw [← splitText_eq_ok_iff] at hp hq
  exact Except.ok.inj (hp.symm.trans hq)

theorem join_ofList_eq_ok_iff {stamp tail : List Char} {x : String} :
    layout.join ⟨String.ofList stamp, String.ofList tail⟩ = .ok x ↔
      stamp.length = layout.width ∧ tail ≠ [] ∧ x = String.ofList (stamp ++ tail) := by
  rw [join_eq_ok_iff, String.length_ofList, isEmpty_eq_false_iff, String.toList_ofList,
    String.ofList_append]

/-- No identifier is empty. -/
theorem toList_ne_nil_of_join {p : Parts} {x : String} (h : layout.join p = .ok x) :
    x.toList ≠ [] := by
  obtain ⟨-, hsequence, rfl⟩ := join_eq_ok_iff.mp h
  rw [String.toList_append]
  exact List.append_ne_nil_of_right_ne_nil _ (isEmpty_eq_false_iff.mp hsequence)

theorem splitText_error {x : String} {e : Error} (h : layout.splitText x = .error e) :
    e.isRejection = true := by
  rw [splitText] at h
  split at h
  · cases h
    exact Error.isRejection_showing _ _
  · cases h

end Layout

/-! ### Encoders that refuse -/

/-- Whatever an encoder does not take, decoding an identifier may take for a
malformed one. -/
structure Encoder.Refuses (e : Encoder) : Prop where
  encode : ∀ {v err}, e.encode v = .error err → err.isRejection = true
  decode : ∀ {s err}, e.decode s = .error err → err.isRejection = true

theorem Numeral.encoder_refuses [Host] (n : Numeral) : n.encoder.Refuses where
  encode h := by
    obtain ⟨f, rfl⟩ := n.encode_error h
    rfl
  decode h := by
    obtain ⟨f, rfl⟩ := n.decode_error h
    rfl

/-! ### The checksum -/

namespace Checksum

variable {c : Checksum}

theorem isValid_eq_ok_true_iff {x : String} : c.isValid (.text x) = .ok true ↔
    ∃ parts number tail bare, c.layout.join parts = .ok x ∧
      c.encoder.decode parts.sequence = .ok number ∧ c.encoder.encode (number / 10) = .ok tail ∧
      c.layout.join ⟨parts.timestamp, tail⟩ = .ok bare ∧
      c.compute (.text bare) = .ok (Text.asciiDigit (number % 10)) := by
  simp only [isValid, Layout.split, bind_eq_ok_iff, Layout.splitText_eq_ok_iff]
  constructor
  · rintro ⟨parts, hparts, number, hnumber, tail, htail, bare, hbare, digit, hdigit, h⟩
    have heq : digit = Text.asciiDigit (number % 10) := eq_of_beq (Except.ok.inj h)
    exact ⟨parts, number, tail, bare, hparts, hnumber, htail, hbare, heq ▸ hdigit⟩
  · rintro ⟨parts, number, tail, bare, hparts, hnumber, htail, hbare, hdigit⟩
    exact ⟨parts, hparts, number, hnumber, tail, htail, bare, hbare, _, hdigit,
      congrArg Except.ok (beq_self_eq_true _)⟩

end Checksum

namespace Codec

variable {c : Codec} {n : Numeral}

/-! ### The texts of a codec -/

/-- A text is written as identifiers are: a stamp of the width, and behind it a
sequence with the digit that checks both. -/
structure Written (c : Codec) (n : Numeral) (x : String) (stamp : List Char) (s d : Nat) : Prop where
  text : x = String.ofList (stamp ++ n.write (s * 10 + d))
  size : stamp.length = c.timestamps.width
  symbols : ∀ ch ∈ stamp, ch ∈ n.symbols
  number_le : n.value stamp ≤ maxValue
  sequence_le : s ≤ Settings.maxSequence
  digit_lt : d < 10
  checks : c.checksum.compute (.text (String.ofList (stamp ++ n.write s))) = .ok (Text.asciiDigit d)

/-- With its check digit, no sequence leaves the range of the encoder. -/
theorem checked_le_maxValue {s d : Nat} (hs : s ≤ Settings.maxSequence) (hd : d < 10) :
    s * 10 + d ≤ maxValue := by
  unfold Settings.maxSequence maxValue at *
  omega

/-- What a decoded text has passed, check by check. -/
theorem decodeText_eq_ok_iff_checks {x : String} {y : Identifier} : c.decodeText x = .ok y ↔
    ∃ parts number, c.checksum.isValid (.text x) = .ok true ∧ c.layout.join parts = .ok x ∧
      c.timestamps.decode (.text parts.timestamp) = .ok y.timestamp ∧
      c.encoder.decode parts.sequence = .ok number ∧ c.encoder.encode number = .ok parts.sequence ∧
      number / 10 ≤ Settings.maxSequence ∧ y.id = x ∧ y.sequence = number / 10 := by
  simp only [decodeText, bind_eq_ok_iff, guard_eq_ok_iff, Layout.splitText_eq_ok_iff]
  constructor
  · rintro ⟨valid, hvalid, hpass, parts, hparts, t, ht, number, hnumber, tail, htail, hcanonical,
      hle, hy⟩
    have hvalid' : valid = true := by simpa using hpass
    rw [not_not.mp hcanonical] at htail
    cases hy
    exact ⟨parts, number, hvalid' ▸ hvalid, hparts, ht, hnumber, htail, not_lt.mp hle, rfl, rfl⟩
  · rintro ⟨parts, number, hvalid, hparts, ht, hnumber, htail, hle, hid, hsequence⟩
    refine ⟨true, hvalid, Bool.false_ne_true, parts, hparts, _, ht, number, hnumber, _, htail,
      not_not.mpr rfl, not_lt.mpr hle, ?_⟩
    rw [← hid, ← hsequence]
    rfl

/-- A stamp and a sequence have a text unless the algorithm rejects their
code. -/
theorem exists_written_iff {ds : String} (hds : c.settings.checkDigitAlphabet = .text ds)
    {stamp : List Char} {s : Nat}
    (hsize : stamp.length = c.timestamps.width) (hsymbols : ∀ ch ∈ stamp, ch ∈ n.symbols)
    (hle : n.value stamp ≤ maxValue) (hs : s ≤ Settings.maxSequence) :
    (∃ x d, c.Written n x stamp s d) ↔
      ¬ c.settings.checkDigitAlgorithm.Rejects (CheckDigit.code (stamp ++ n.write s)) := by
  have hne : (String.ofList (stamp ++ n.write s)).toList ≠ [] := by
    rw [String.toList_ofList]
    exact List.append_ne_nil_of_right_ne_nil _ (n.write_ne_nil s)
  have hcases := compute_cases hds hne
  rw [String.toList_ofList] at hcases
  constructor
  · rintro ⟨x, d, hw⟩
    rcases hcases with ⟨-, hr⟩ | ⟨herror, -⟩
    · exact hr
    · cases hw.checks.symm.trans herror
  · intro hr
    rcases hcases with ⟨⟨d, hd, hok⟩, -⟩ | ⟨-, hr'⟩
    · exact ⟨_, d, ⟨rfl, hsize, hsymbols, hle, hs, hd, hok⟩⟩
    · exact absurd hr' hr

/-- The stamp is what stands in front. -/
theorem Written.take {x : String} {stamp : List Char} {s d : Nat} (hw : c.Written n x stamp s d) :
    x.toList.take c.timestamps.width = stamp := by
  rw [hw.text, String.toList_ofList, ← hw.size, List.take_left]

/-- Only the sequence decides how long a text is. -/
theorem Written.length_eq {x : String} {stamp : List Char} {s d : Nat} (hw : c.Written n x stamp s d) :
    x.length = c.timestamps.width + (n.write (s * 10 + d)).length := by
  rw [hw.text, String.length_ofList, List.length_append, hw.size]

theorem Written.mem_symbols {x : String} {stamp : List Char} {s d : Nat}
    (hw : c.Written n x stamp s d) : ∀ ch ∈ x.toList, ch ∈ n.symbols := by
  intro ch hch
  rw [hw.text, String.toList_ofList, List.mem_append] at hch
  rcases hch with hch | hch
  · exact hw.symbols ch hch
  · exact n.mem_write hch

/-- No written text holds a space. -/
theorem Written.space_notMem {x : String} {stamp : List Char} {s d : Nat}
    (hw : c.Written n x stamp s d) : ' ' ∉ x.toList := by
  intro hspace
  have hblank := n.noBlank ' ' (hw.mem_symbols ' ' hspace)
  revert hblank
  decide

/-- Neither the stamp nor the sequence is empty. -/
theorem Written.two_le_length {x : String} {stamp : List Char} {s d : Nat}
    (hw : c.Written n x stamp s d) : 2 ≤ x.toList.length := by
  have hstamp := c.timestamps.width_pos
  have htail : 0 < (n.write (s * 10 + d)).length := List.length_pos_iff.mpr (n.write_ne_nil _)
  rw [String.length_toList, hw.length_eq]
  omega

/-- The parts of a written text. -/
theorem Written.join {x : String} {stamp : List Char} {s d : Nat} (hw : c.Written n x stamp s d) :
    c.layout.join ⟨String.ofList stamp, String.ofList (n.write (s * 10 + d))⟩ = .ok x :=
  Layout.join_ofList_eq_ok_iff.mpr ⟨hw.size, n.write_ne_nil _, hw.text⟩

/-! ### Writing and reading -/

section Reading

variable [Host]

/-- A stamp of symbols is read as its value. -/
theorem decode_stamp_eq_ok_iff (h : c.Uses n) {stamp : List Char} {t : Instant} :
    c.timestamps.decode (.text (String.ofList stamp)) = .ok t ↔
      stamp ≠ [] ∧ (∀ ch ∈ stamp, ch ∈ n.symbols) ∧ n.value stamp ≤ maxValue ∧
        c.timestamps.unpack (n.value stamp) = .ok t := by
  rw [TimestampCodec.decode, h.encoder]
  simp only [Encoder.decodeValue, Numeral.encoder, bind_eq_ok_iff, n.decode_eq_ok_iff,
    String.toList_ofList]
  constructor
  · rintro ⟨_, ⟨hne, hmem, rfl, hle⟩, ht⟩
    exact ⟨hne, hmem, hle, ht⟩
  · rintro ⟨hne, hmem, hle, ht⟩
    exact ⟨_, ⟨hne, hmem, rfl, hle⟩, ht⟩

/-- The checksum of a written text is right. -/
theorem Written.isValid (h : c.Uses n) {x : String} {stamp : List Char} {s d : Nat}
    (hw : c.Written n x stamp s d) : c.checksum.isValid (.text x) = .ok true := by
  have hencoder : c.checksum.encoder = n.encoder := h.encoder
  have hmax := checked_le_maxValue hw.sequence_le hw.digit_lt
  have hdigit := hw.digit_lt
  have hdiv : (s * 10 + d) / 10 = s := by omega
  have hmod : (s * 10 + d) % 10 = d := by omega
  have hbare : c.layout.join ⟨String.ofList stamp, String.ofList (n.write s)⟩ =
      .ok (String.ofList (stamp ++ n.write s)) :=
    Layout.join_ofList_eq_ok_iff.mpr ⟨hw.size, n.write_ne_nil _, rfl⟩
  rw [Checksum.isValid_eq_ok_true_iff, hencoder]
  refine ⟨_, s * 10 + d, String.ofList (n.write s), _, hw.join, n.decode_write hmax, ?_, hbare, ?_⟩
  · rw [hdiv]
    exact n.encode_eq_ok_iff.mpr ⟨by omega, rfl⟩
  · rw [hmod]
    exact hw.checks

/-- A written text decodes to its stamp's time and its sequence, if the
calendar has that time. -/
theorem Written.decodeText (h : c.Uses n) {x : String} {stamp : List Char} {s d : Nat} {t : Instant}
    (hw : c.Written n x stamp s d) (ht : c.timestamps.unpack (n.value stamp) = .ok t) :
    c.decodeText x = .ok ⟨x, t, s⟩ := by
  have hencoder : c.encoder = n.encoder := h.encoder
  have hmax := checked_le_maxValue hw.sequence_le hw.digit_lt
  have hdiv : (s * 10 + d) / 10 = s := by have := hw.digit_lt; omega
  have hne : stamp ≠ [] := by
    rintro rfl
    exact absurd hw.size c.timestamps.width_pos.ne
  rw [decodeText_eq_ok_iff_checks, hencoder]
  refine ⟨_, s * 10 + d, hw.isValid h, hw.join,
    (decode_stamp_eq_ok_iff h).mpr ⟨hne, hw.symbols, hw.number_le, ht⟩, n.decode_write hmax,
    n.encode_eq_ok_iff.mpr ⟨hmax, rfl⟩, ?_, rfl, hdiv.symm⟩
  rw [hdiv]
  exact hw.sequence_le

/-- What decodes is written. -/
theorem written_of_decodeText (h : c.Uses n) {x : String} {y : Identifier}
    (hy : c.decodeText x = .ok y) :
    ∃ stamp s d, c.Written n x stamp s d ∧ c.timestamps.unpack (n.value stamp) = .ok y.timestamp ∧
      y.id = x ∧ y.sequence = s := by
  have hencoder : c.encoder = n.encoder := h.encoder
  have hchecksum : c.checksum.encoder = n.encoder := h.encoder
  rw [decodeText_eq_ok_iff_checks, Checksum.isValid_eq_ok_true_iff, hencoder, hchecksum] at hy
  obtain ⟨⟨timestamp, sequence⟩, number, ⟨_, _, _, bare, hjoin', hnumber', htail, hbare, hdigit⟩,
    hjoin, ht, hnumber, hcanonical, hle, hid, hs⟩ := hy
  -- the checksum and the decoder split the text alike
  cases Layout.join_inj hjoin' hjoin
  cases Except.ok.inj (hnumber'.symm.trans hnumber)
  obtain ⟨-, rfl⟩ := n.encode_eq_ok_iff.mp htail
  obtain ⟨-, hsequence⟩ := n.encode_eq_ok_iff.mp hcanonical
  simp only at hsequence
  subst hsequence
  obtain ⟨stamp, rfl⟩ : ∃ cs, timestamp = String.ofList cs := ⟨_, String.ofList_toList.symm⟩
  obtain ⟨hsize, -, hx⟩ := Layout.join_ofList_eq_ok_iff.mp hjoin
  obtain ⟨-, -, rfl⟩ := Layout.join_ofList_eq_ok_iff.mp hbare
  obtain ⟨-, hsymbols, hvalue, hunpack⟩ := (decode_stamp_eq_ok_iff h).mp ht
  have hsplit : number / 10 * 10 + number % 10 = number := Nat.div_add_mod' number 10
  refine ⟨stamp, number / 10, number % 10, ?_, hunpack, hid, hs⟩
  exact
    { text := by rw [hsplit]; exact hx
      size := hsize
      symbols := hsymbols
      number_le := hvalue
      sequence_le := hle
      digit_lt := Nat.mod_lt _ (by norm_num)
      checks := hdigit }

/-- A text decodes if and only if it is written by the codec and the calendar
has the stamp's time. -/
theorem decodeText_eq_ok_iff (h : c.Uses n) {x : String} {y : Identifier} : c.decodeText x = .ok y ↔
    ∃ stamp s d, c.Written n x stamp s d ∧ c.timestamps.unpack (n.value stamp) = .ok y.timestamp ∧
      y.id = x ∧ y.sequence = s := by
  refine ⟨written_of_decodeText h, ?_⟩
  rintro ⟨stamp, s, d, hw, ht, rfl, rfl⟩
  exact hw.decodeText h ht

end Reading

/-! ### Texts that are refused -/

theorem checksum_isValid_error (h : c.encoder.Refuses) {x : String} {e : Error}
    (he : c.checksum.isValid (.text x) = .error e) : e.isRejection = true := by
  have hencoder : c.checksum.encoder = c.encoder := rfl
  simp only [Checksum.isValid, hencoder, Layout.split, bind_eq_error_iff] at he
  rcases he with hsplit | ⟨parts, -, hdecode | ⟨number, -, hencode | ⟨tail, -, hjoin | ⟨bare, hbare,
    hcompute | ⟨digit, -, hpure⟩⟩⟩⟩⟩
  · exact Layout.splitText_error hsplit
  · exact h.decode hdecode
  · exact h.encode hencode
  · exact Layout.join_error hjoin
  · rcases CheckDigit.compute_error (Layout.toList_ne_nil_of_join hbare) hcompute with
      ⟨f, rfl⟩ | ⟨f, rfl⟩ <;> rfl
  · cases hpure

/-- Whatever is wrong with a text, it is refused and nothing worse. -/
theorem decodeText_error (h : c.encoder.Refuses) {x : String} {e : Error}
    (he : c.decodeText x = .error e) : e.isRejection = true := by
  have hencoder : c.timestamps.encoder = c.encoder := rfl
  simp only [decodeText, TimestampCodec.decode, hencoder, Encoder.decodeValue,
    bind_eq_error_iff, guard_eq_error_iff] at he
  rcases he with hchecksum | ⟨valid, -, ⟨-, rfl⟩ | ⟨-, hsplit | ⟨parts, -,
    (hstamp | ⟨v, -, hunpack⟩) | ⟨t, -, hdecode | ⟨number, -, hencode | ⟨tail, -, ⟨-, rfl⟩ |
    ⟨-, ⟨-, rfl⟩ | ⟨-, hpure⟩⟩⟩⟩⟩⟩⟩⟩
  · exact checksum_isValid_error h hchecksum
  · rfl
  · exact Layout.splitText_error hsplit
  · exact h.decode hstamp
  · obtain ⟨-, rfl⟩ := TimestampCodec.unpack_eq_error_iff.mp hunpack
    rfl
  · exact h.decode hdecode
  · exact h.encode hencode
  · rfl
  · exact Error.isRejection_showing _ _
  · cases hpure

theorem decode_eq_some_iff {x : String} {y : Identifier} :
    (c.decode (.text x)).result = .ok (some y) ↔ c.decodeText x = .ok y := by
  rw [decode, decodeValue]
  cases hx : c.decodeText x with
  | ok z => exact ⟨fun h => congrArg Except.ok (Option.some.inj (Except.ok.inj h)),
      fun h => congrArg (Except.ok ∘ some) (Except.ok.inj h)⟩
  | error e =>
    simp only
    split
    · exact ⟨nofun, nofun⟩
    · exact ⟨nofun, nofun⟩

/-- How decoding answers a value: with an identifier of that text, or with none
and a line that says why. -/
theorem decode_cases (h : c.encoder.Refuses) (v : Value) :
    (∃ y, v = .text y.id ∧ c.decode v = ⟨.ok (some y), []⟩) ∨
      ∃ why, c.decodeValue v = .error why ∧ c.decode v = ⟨.ok none, [.notDecoded why]⟩ := by
  unfold decode
  cases hv : c.decodeValue v with
  | ok y =>
    left
    refine ⟨y, ?_, rfl⟩
    cases v with
    | text x =>
      obtain ⟨_, _, -, -, -, -, -, -, hid, -⟩ := decodeText_eq_ok_iff_checks.mp hv
      rw [hid]
    | _ => cases hv
  | error why =>
    right
    have hrejection : why.isRejection = true := by
      cases v with
      | text x => exact decodeText_error h hv
      | _ =>
        cases hv
        exact Error.isRejection_showing _ _
    refine ⟨why, rfl, ?_⟩
    simp only
    rw [if_pos hrejection]
    rfl

section Answers

variable [Host]

theorem Uses.refuses (h : c.Uses n) : c.encoder.Refuses := by
  have hencoder : c.encoder = n.encoder := h.encoder
  rw [hencoder]
  exact n.encoder_refuses

/-- Every text has an answer. -/
theorem decode_text (h : c.Uses n) (x : String) : ∃ o, (c.decode (.text x)).result = .ok o := by
  rcases decode_cases h.refuses (.text x) with ⟨y, -, hy⟩ | ⟨why, -, hwhy⟩
  · exact ⟨some y, congrArg Logged.result hy⟩
  · exact ⟨none, congrArg Logged.result hwhy⟩

/-- A text that decodes to no identifier is rejected. -/
theorem decode_eq_none (h : c.Uses n) {x : String} (hx : ∀ y, c.decodeText x ≠ .ok y) :
    (c.decode (.text x)).result = .ok none := by
  obtain ⟨o, ho⟩ := decode_text h x
  cases o with
  | none => exact ho
  | some y => exact absurd (decode_eq_some_iff.mp ho) (hx y)

/-- A written text is no identifier if the calendar has no time for its
stamp. -/
theorem Written.undecodable (h : c.Uses n) {x : String} {stamp : List Char} {s d : Nat} {e : Error}
    (hw : c.Written n x stamp s d) (he : c.timestamps.unpack (n.value stamp) = .error e) :
    (c.decode (.text x)).result = .ok none := by
  apply decode_eq_none h
  intro y hy
  obtain ⟨stamp', s', d', hw', hunpack, -⟩ := written_of_decodeText h hy
  rw [← hw'.take, hw.take, he] at hunpack
  cases hunpack

end Answers

/-! ### One text for a stamp and a sequence -/

section Unique

variable {x x' : String} {stamp stamp' : List Char} {s s' d d' : Nat}

/-- A text is written in one way. -/
theorem Written.parts_eq (hw : c.Written n x stamp s d) (hsize : stamp'.length = c.timestamps.width)
    (hd' : d' < 10) (hx : x = String.ofList (stamp' ++ n.write (s' * 10 + d'))) :
    stamp = stamp' ∧ s = s' ∧ d = d' := by
  have htext := hw.text.symm.trans hx
  rw [String.ofList_inj] at htext
  obtain ⟨hstamp, htail⟩ := List.append_inj htext (hw.size.trans hsize.symm)
  have hnumber := n.write_inj htail
  have hd := hw.digit_lt
  exact ⟨hstamp, by omega, by omega⟩

/-- A stamp and a sequence have one check digit. -/
theorem Written.digit_eq (hw : c.Written n x stamp s d) (hw' : c.Written n x' stamp s d') : d = d' :=
  Text.asciiDigit_inj hw.digit_lt hw'.digit_lt (Except.ok.inj (hw.checks.symm.trans hw'.checks))

/-- Written texts of one stamp and one sequence are the same. -/
theorem Written.unique (hw : c.Written n x stamp s d) (hw' : c.Written n x' stamp s d') : x = x' := by
  rw [hw.text, hw'.text, hw.digit_eq hw']

end Unique

/-- What a codec without an encoder of the caller's decodes. It has an answer
for every text; it accepts just those that are written, with a time in the
calendar; no two of them share the stamp and the sequence, and of the ten
texts of a stamp and a sequence at most one is accepted. -/
theorem decode_accepts_written [Host] {source : Settings.Source} {shared : Option Instant} {c : Codec}
    (h : (build source none shared).result = .ok c) : ∃ n, c.Uses n ∧
      (∀ x, ∃ o, (c.decode (.text x)).result = .ok o) ∧
      (∀ x y, (c.decode (.text x)).result = .ok (some y) ↔
        ∃ stamp s d, c.Written n x stamp s d ∧ c.timestamps.unpack (n.value stamp) = .ok y.timestamp ∧
          y.id = x ∧ y.sequence = s) ∧
      (∀ x x' y y', (c.decode (.text x)).result = .ok (some y) →
        (c.decode (.text x')).result = .ok (some y') →
        x.toList.take c.timestamps.width = x'.toList.take c.timestamps.width →
        y.sequence = y'.sequence → x = x') ∧
      ∀ (stamp : List Char) s d d' y y', stamp.length = c.timestamps.width → d < 10 → d' < 10 →
        (c.decode (.text (String.ofList (stamp ++ n.write (s * 10 + d))))).result = .ok (some y) →
        (c.decode (.text (String.ofList (stamp ++ n.write (s * 10 + d'))))).result = .ok (some y') →
        d = d' := by
  obtain ⟨n, hn⟩ := exists_uses_of_build h
  simp only [decode_eq_some_iff, decodeText_eq_ok_iff hn]
  refine ⟨n, hn, decode_text hn, fun _ _ => Iff.rfl, ?_, ?_⟩
  · rintro x x' y y' ⟨stamp, s, d, hw, -, -, rfl⟩ ⟨stamp', s', d', hw', -, -, rfl⟩ htake hsequence
    have hstamp : stamp = stamp' := by rw [← hw.take, htake, hw'.take]
    subst hstamp
    rw [hsequence] at hw
    exact hw.unique hw'
  · rintro stamp s d d' y y' hsize hd hd' ⟨_, _, _, hw, -⟩ ⟨_, _, _, hw', -⟩
    obtain ⟨rfl, rfl, rfl⟩ := hw.parts_eq hsize hd rfl
    obtain ⟨rfl, rfl, rfl⟩ := hw'.parts_eq hsize hd' rfl
    exact hw.digit_eq hw'

section Ample

attribute [local instance] Host.ample

/-- The default codec accepts a text for its epoch and the sequence seven. -/
theorem decode_accepts_written_default : ∃ c x y,
    (build .defaults none (some .start)).result = .ok c ∧
      (c.decode (.text x)).result = .ok (some y) ∧ y.timestamp = .start ∧ y.sequence = 7 := by
  obtain ⟨c, hc, hsettings, htimestamps, -⟩ := exists_build_defaults .start
  obtain ⟨n, -, -, haccepts, -⟩ := decode_accepts_written hc
  have hvalue : n.value (List.replicate c.timestamps.width n.zero) = 0 := by
    have := n.value_replicate_append c.timestamps.width []
    rwa [List.append_nil, n.value_nil] at this
  have hds : c.settings.checkDigitAlphabet = .text "0123456789" :=
    congrArg (·.checkDigitAlphabet) hsettings
  have hrejects : ¬ c.settings.checkDigitAlgorithm.Rejects
      (CheckDigit.code (List.replicate c.timestamps.width n.zero ++ n.write 7)) := by
    rw [hsettings]
    exact fun h => h.1.elim nofun nofun
  obtain ⟨x, d, hw⟩ := (exists_written_iff hds List.length_replicate
    (fun ch hch => List.eq_of_mem_replicate hch ▸ n.zero_mem) (hvalue ▸ Nat.zero_le _)
    (by decide)).mpr hrejects
  refine ⟨c, x, ⟨x, .start, 7⟩, hc, (haccepts x _).mpr ⟨_, 7, d, hw, ?_, rfl, rfl⟩, rfl, rfl⟩
  rw [hvalue, Nat.cast_zero, TimestampCodec.unpack_zero, htimestamps]

end Ample

end Codec
end ChronoId
