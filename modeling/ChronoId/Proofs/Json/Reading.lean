/-
# How much of a text JSON takes, and how much fuel

The readers are taken apart into steps: how a value starts, and what stands
behind that. Whatever is read leaves less of the text than there was, so fuel
of more than twice the length of the text never runs out: with more of it the
same is read.

Key definitions: `Json.Opening`, `Json.opening`, `Json.readBehind`,
`Json.readGroup`, `Json.readOn`.
Key theorems: `Json.readValue_succ`, `Json.length_lt_of_readValue`,
`Json.readValue_of_le`.
-/
import ChronoId.Json.Reader
import ChronoId.Proofs.Decimal
import ChronoId.Proofs.Results

namespace ChronoId
namespace Json

variable {limits : Limits} {fuel fuel' room : Nat} {cs rest : List Char} {v : Value}

/-! ### The readers, step by step -/

theorem skipBlanks_cons_of_isBlank {c : Char} (h : isBlank c = true) (cs : List Char) :
    skipBlanks (c :: cs) = skipBlanks cs := List.dropWhile_cons_of_pos h

theorem skipBlanks_cons_of_not_isBlank {c : Char} (h : ¬ isBlank c = true) (cs : List Char) :
    skipBlanks (c :: cs) = c :: cs := List.dropWhile_cons_of_neg h

/-- The character of an escape of one letter. -/
def shortEscape? (c : Char) : Option Char :=
  match c with
  | '"' => some '"'
  | '\\' => some '\\'
  | '/' => some '/'
  | 'b' => some '\x08'
  | 'f' => some '\x0c'
  | 'n' => some '\n'
  | 'r' => some '\r'
  | 't' => some '\t'
  | _ => none

theorem readEscape?_cons (c : Char) (cs : List Char) : readEscape? (c :: cs) =
    if c = 'u' then readEscapedUnit? cs else (shortEscape? c).map fun d => (d, cs) := by
  unfold readEscape? shortEscape?
  split <;> simp_all

/-- How a value starts. -/
inductive Opening where
  | text
  | array
  | object
  | word (v : Value)
  | number

/-- How the value at the start of a text without blanks in front starts, and
what stands behind that. -/
def opening : List Char → Opening × List Char
  | '"' :: rest => (.text, rest)
  | '[' :: rest => (.array, rest)
  | '\x7b' :: rest => (.object, rest)
  | 'n' :: 'u' :: 'l' :: 'l' :: rest => (.word .null, rest)
  | 't' :: 'r' :: 'u' :: 'e' :: rest => (.word (.bool true), rest)
  | 'f' :: 'a' :: 'l' :: 's' :: 'e' :: rest => (.word (.bool false), rest)
  | rest => (.number, rest)

section Groups

variable {α : Type}

/-- What stands behind an opening bracket: nothing but the closing one, or what
`more` reads. -/
def readGroup (close : Char) (more : List Char → Except Problem (List α × List Char))
    (cs : List Char) : Except Problem (List α × List Char) :=
  Reader.onChar close (fun rest => .ok ([], rest)) more (skipBlanks cs)

/-- What stands behind the first item of a group: the closing bracket, or a
comma and what `more` reads. -/
def readOn (close : Char) (first : α) (more : List Char → Except Problem (List α × List Char))
    (cs : List Char) : Except Problem (List α × List Char) :=
  Reader.onChar close (fun rest => .ok ([first], rest))
    (Reader.onChar ',' (fun rest => (more rest).map fun p => (first :: p.1, p.2))
      fun _ => .error .malformed)
    (skipBlanks cs)

end Groups

/-- The value behind its start. -/
def readBehind (limits : Limits) (fuel room : Nat) :
    Opening → List Char → Except Problem (Value × List Char)
  | .text, cs => (orMalformed (readText? fuel cs)).map fun p => (.text (String.ofList p.1), p.2)
  | .array, cs =>
    if room = 0 then .error .tooDeep
    else (readGroup ']' (readItems limits fuel (room - 1)) cs).map fun p => (.array p.1, p.2)
  | .object, cs =>
    if room = 0 then .error .tooDeep
    else (readGroup '\x7d' (readMembers limits fuel (room - 1)) cs).map fun p =>
      (.object (collect p.1), p.2)
  | .word v, cs => .ok (v, cs)
  | .number, cs => orMalformed (readNumber? limits cs)

theorem readValue_succ (limits : Limits) (fuel room : Nat) (cs : List Char) :
    readValue limits (fuel + 1) room cs =
      readBehind limits fuel room (opening (skipBlanks cs)).1 (opening (skipBlanks cs)).2 := by
  rw [readValue]
  generalize skipBlanks cs = ds
  unfold opening
  split <;> simp only [readBehind, readGroup]
  · next rest => cases readText? fuel rest <;> rfl
  · next rest =>
    generalize skipBlanks rest = es
    split
    · rfl
    split
    · rfl
    · next h =>
      rw [Reader.onChar_of_ne h]
      cases readItems limits fuel (room - 1) es <;> rfl
  · next rest =>
    generalize skipBlanks rest = es
    split
    · rfl
    split
    · rfl
    · next h =>
      rw [Reader.onChar_of_ne h]
      cases readMembers limits fuel (room - 1) es <;> rfl

theorem readItems_succ (limits : Limits) (fuel room : Nat) (cs : List Char) :
    readItems limits (fuel + 1) room cs =
      Reader.andThen (readValue limits fuel room)
        (fun v => readOn ']' v (readItems limits fuel room)) cs := by
  rw [readItems]
  refine congrArg _ (funext fun p => ?_)
  simp only [readOn]
  generalize skipBlanks p.2 = es
  split
  · rfl
  · next rest =>
    rw [Reader.onChar_of_ne (by simp), Reader.onChar_cons]
    cases readItems limits fuel room rest <;> rfl
  · next h h' => rw [Reader.onChar_of_ne h, Reader.onChar_of_ne h']

theorem readMembers_succ (limits : Limits) (fuel room : Nat) (cs : List Char) :
    readMembers limits (fuel + 1) room cs =
      Reader.andThen (fun cs => orMalformed (readKey? fuel cs)) (fun key =>
        Reader.andThen (readValue limits fuel room) fun v =>
          readOn '\x7d' (key, v) (readMembers limits fuel room)) cs := by
  rw [readMembers]
  refine congrArg _ (funext fun k => ?_)
  refine congrArg (readValue limits fuel room k.2 >>= ·) (funext fun p => ?_)
  simp only [readOn]
  generalize skipBlanks p.2 = es
  split
  · rfl
  · next rest =>
    rw [Reader.onChar_of_ne (by simp), Reader.onChar_cons]
    cases readMembers limits fuel room rest <;> rfl
  · next h h' => rw [Reader.onChar_of_ne h, Reader.onChar_of_ne h']

theorem readKey?_eq (fuel : Nat) (cs : List Char) :
    readKey? fuel cs = Reader.onChar '"'
      (Reader.andThen (readText? fuel) fun key cs =>
        Reader.onChar ':' (fun rest => some (String.ofList key, rest)) (fun _ => none)
          (skipBlanks cs))
      (fun _ => none) (skipBlanks cs) := by
  unfold readKey?
  generalize skipBlanks cs = ds
  split
  · next rest =>
    rw [Reader.onChar_cons]
    refine congrArg (readText? fuel rest >>= ·) (funext fun p => ?_)
    simp only
    generalize skipBlanks p.2 = es
    split
    · rw [Reader.onChar_cons]
    · next h => rw [Reader.onChar_of_ne h]
  · next h => rw [Reader.onChar_of_ne h]

theorem readLowHalf?_eq (cs : List Char) :
    readLowHalf? cs = Reader.onChar '\\'
      (Reader.onChar 'u'
        (Reader.andThen readUnit? fun unit rest =>
          if 0xdc00 ≤ unit ∧ unit ≤ 0xdfff then some (unit - 0xdc00, rest) else none)
        fun _ => none)
      (fun _ => none) cs := by
  unfold readLowHalf?
  split
  · rw [Reader.onChar_cons, Reader.onChar_cons]
    rfl
  · next h =>
    rcases Reader.onChar_cases '\\' _ (fun _ => (none : Option (Nat × List Char))) cs with
      ⟨rest, rfl, hback⟩ | hback
    · rw [hback, Reader.onChar_of_ne fun rest' hrest => h rest' (by rw [hrest])]
    · rw [hback]

/-- The value of a hexadecimal digit, and the rest. -/
def hexDigit? : List Char → Option (Nat × List Char)
  | [] => none
  | c :: cs => (hexValue? c).map fun d => (d, cs)

theorem readUnit?_eq (cs : List Char) : readUnit? cs =
    Reader.andThen hexDigit? (fun a => Reader.andThen hexDigit? fun b =>
      Reader.andThen hexDigit? fun c => Reader.andThen hexDigit? fun d rest =>
        some (((a * 16 + b) * 16 + c) * 16 + d, rest)) cs := by
  rcases cs with _ | ⟨a, _ | ⟨b, _ | ⟨c, _ | ⟨d, rest⟩⟩⟩⟩ <;>
    simp [Reader.andThen, readUnit?, hexDigit?, Option.bind_map]

theorem readEscapedUnit?_eq (cs : List Char) : readEscapedUnit? cs =
    Reader.andThen readUnit? (fun unit cs =>
      if 0xd800 ≤ unit ∧ unit ≤ 0xdbff then
        Reader.andThen readLowHalf? (fun low rest =>
          some (Char.ofNat (0x10000 + (unit - 0xd800) * 0x400 + low), rest)) cs
      else if 0xdc00 ≤ unit ∧ unit ≤ 0xdfff then none
      else some (Char.ofNat unit, cs)) cs := rfl

/-- What a number is worth within limits. -/
def worth? (limits : Limits) (d : Decimal) : Option Value :=
  if d.isWhole then
    if d.negative.toNat + d.whole.length ≤ limits.wholeLength then some (.int d.toInt) else none
  else if d.inDoubleRange then some (.float d) else none

theorem readNumber?_eq (limits : Limits) (cs : List Char) : readNumber? limits cs =
    Reader.andThen Decimal.read? (fun d rest => (worth? limits d).map fun v => (v, rest)) cs := by
  unfold readNumber? worth? Reader.andThen
  cases h : Decimal.read? cs with
  | none => rfl
  | some p =>
    obtain ⟨-, hwhole⟩ := Decimal.length_of_read? h
    simp only [Option.bind_eq_bind, Option.bind_some]
    split
    · next hint =>
      have hlength : cs.length - p.2.length = p.1.negative.toNat + p.1.whole.length := by
        have := hwhole hint
        omega
      rw [hlength]
      split <;> rfl
    · split <;> rfl

/-! ### What is left -/

theorem length_skipBlanks_le (cs : List Char) : (skipBlanks cs).length ≤ cs.length :=
  (List.dropWhile_sublist _).length_le

theorem length_of_readUnit? {n : Nat} (h : readUnit? cs = some (n, rest)) :
    rest.length + 4 = cs.length := by
  unfold readUnit? at h
  split at h
  · simp only [Option.bind_eq_bind, Option.bind_eq_some_iff] at h
    obtain ⟨_, -, _, -, _, -, _, -, h⟩ := h
    cases h
    simp
  · cases h

theorem length_lt_of_readLowHalf? {n : Nat} (h : readLowHalf? cs = some (n, rest)) :
    rest.length < cs.length := by
  unfold readLowHalf? at h
  split at h
  · obtain ⟨⟨unit, after⟩, hunit, h⟩ := Option.bind_eq_some_iff.mp h
    have hlength := length_of_readUnit? hunit
    simp only [Option.ite_none_right_eq_some, Option.some.injEq, Prod.mk.injEq] at h
    obtain ⟨-, -, rfl⟩ := h
    simp only [List.length_cons]
    omega
  · cases h

theorem length_lt_of_readEscapedUnit? {d : Char} (h : readEscapedUnit? cs = some (d, rest)) :
    rest.length < cs.length := by
  obtain ⟨⟨unit, after⟩, hunit, h⟩ := Option.bind_eq_some_iff.mp h
  have hlength := length_of_readUnit? hunit
  simp only at h
  split at h
  · obtain ⟨⟨low, behind⟩, hlow, h⟩ := Option.bind_eq_some_iff.mp h
    have hlt := length_lt_of_readLowHalf? hlow
    obtain rfl : behind = rest := (Prod.mk.inj (Option.some.inj h)).2
    omega
  · split at h
    · cases h
    · cases h
      omega

theorem length_lt_of_readEscape? {d : Char} (h : readEscape? cs = some (d, rest)) :
    rest.length < cs.length := by
  cases cs with
  | nil => cases h
  | cons c cs =>
    rw [readEscape?_cons] at h
    rw [List.length_cons]
    split at h
    · have hlt := length_lt_of_readEscapedUnit? h
      omega
    · obtain ⟨_, -, h⟩ := Option.map_eq_some_iff.mp h
      obtain rfl : cs = rest := (Prod.mk.inj h).2
      omega

theorem length_lt_of_readText? {ds : List Char} (h : readText? fuel cs = some (ds, rest)) :
    rest.length < cs.length := by
  induction fuel generalizing cs ds rest with
  | zero => cases h
  | succ fuel ih =>
    cases cs with
    | nil => cases h
    | cons c cs =>
      rw [readText?] at h
      simp only [List.length_cons]
      split at h
      · cases h
        omega
      split at h
      · obtain ⟨⟨d, after⟩, hescape, h⟩ := Option.bind_eq_some_iff.mp h
        obtain ⟨⟨es, behind⟩, htext, h⟩ := Option.bind_eq_some_iff.mp h
        have hlt := length_lt_of_readEscape? hescape
        have := ih htext
        cases h
        omega
      split at h
      · cases h
      · obtain ⟨⟨es, behind⟩, htext, h⟩ := Option.bind_eq_some_iff.mp h
        have := ih htext
        cases h
        omega

theorem length_lt_of_readNumber? (h : readNumber? limits cs = some (v, rest)) :
    rest.length < cs.length := by
  rw [readNumber?_eq] at h
  obtain ⟨⟨d, after⟩, hd, h⟩ := Option.bind_eq_some_iff.mp h
  obtain ⟨_, -, h⟩ := Option.map_eq_some_iff.mp h
  obtain rfl : after = rest := (Prod.mk.inj h).2
  exact (Decimal.length_of_read? hd).1

theorem orMalformed_eq_ok_iff {α : Type} {o : Option α} {a : α} :
    orMalformed o = .ok a ↔ o = some a := by
  cases o with
  | none => exact ⟨nofun, nofun⟩
  | some b =>
    exact ⟨fun h => congrArg some (Except.ok.inj h), fun h => congrArg _ (Option.some.inj h)⟩

section Groups

variable {α : Type} {close : Char} {first : α} {as : List α}
  {more : List Char → Except Problem (List α × List Char)}

theorem length_lt_of_readGroup (hmore : ∀ {cs as rest}, more cs = .ok (as, rest) →
    rest.length < cs.length) (h : readGroup close more cs = .ok (as, rest)) :
    rest.length < cs.length := by
  have hblanks := length_skipBlanks_le cs
  rw [readGroup] at h
  rcases Reader.onChar_cases close _ more (skipBlanks cs) with ⟨after, hclose, heq⟩ | heq
  · rw [heq] at h
    cases h
    rw [hclose, List.length_cons] at hblanks
    omega
  · rw [heq] at h
    have hlt := hmore h
    omega

theorem length_lt_of_readOn (hmore : ∀ {cs as rest}, more cs = .ok (as, rest) →
    rest.length < cs.length) (h : readOn close first more cs = .ok (as, rest)) :
    rest.length < cs.length := by
  have hblanks := length_skipBlanks_le cs
  rw [readOn] at h
  rcases Reader.onChar_cases close _ _ (skipBlanks cs) with ⟨after, hclose, heq⟩ | heq
  · rw [heq] at h
    cases h
    rw [hclose, List.length_cons] at hblanks
    omega
  rw [heq] at h
  rcases Reader.onChar_cases ',' _ _ (skipBlanks cs) with ⟨after, hcomma, heq⟩ | heq
  · rw [heq] at h
    obtain ⟨⟨as, behind⟩, h, hrest⟩ := map_eq_ok_iff.mp h
    have hlt := hmore h
    obtain rfl : behind = rest := (Prod.mk.inj hrest).2
    rw [hcomma, List.length_cons] at hblanks
    omega
  · rw [heq] at h
    cases h

end Groups

theorem length_lt_of_readKey? {key : String} (h : readKey? fuel cs = some (key, rest)) :
    rest.length < cs.length := by
  have hblanks := length_skipBlanks_le cs
  rw [readKey?_eq] at h
  rcases Reader.onChar_cases '"' _ _ (skipBlanks cs) with ⟨after, hquote, heq⟩ | heq
  · rw [heq] at h
    obtain ⟨⟨ds, behind⟩, htext, h⟩ := Option.bind_eq_some_iff.mp h
    have hlt := length_lt_of_readText? htext
    have hblanks' := length_skipBlanks_le behind
    simp only at h
    rcases Reader.onChar_cases ':' _ _ (skipBlanks behind) with ⟨_, hcolon, heq⟩ | heq
    · rw [heq] at h
      cases h
      rw [hquote, List.length_cons] at hblanks
      rw [hcolon, List.length_cons] at hblanks'
      omega
    · rw [heq] at h
      cases h
  · rw [heq] at h
    cases h

theorem length_opening_le (cs : List Char) : (opening cs).2.length ≤ cs.length ∧
    ((opening cs).1 ≠ .number → (opening cs).2.length < cs.length) := by
  unfold opening
  split
  case h_7 => exact ⟨Nat.le_refl _, fun h => absurd rfl h⟩
  all_goals
    simp only [List.length_cons]
    omega

/-- A value of a word is all read with its start. -/
theorem length_le_of_readBehind {start : Opening}
    (hitems : ∀ {room cs vs rest}, readItems limits fuel room cs = .ok (vs, rest) →
      rest.length < cs.length)
    (hmembers : ∀ {room cs ms rest}, readMembers limits fuel room cs = .ok (ms, rest) →
      rest.length < cs.length)
    (h : readBehind limits fuel room start cs = .ok (v, rest)) :
    rest.length ≤ cs.length ∧ (start = .number → rest.length < cs.length) := by
  cases start with
  | text =>
    obtain ⟨⟨ds, after⟩, hread, hrest⟩ := map_eq_ok_iff.mp h
    obtain rfl : after = rest := (Prod.mk.inj hrest).2
    exact ⟨Nat.le_of_lt (length_lt_of_readText? (orMalformed_eq_ok_iff.mp hread)), nofun⟩
  | array =>
    simp only [readBehind] at h
    split at h
    · cases h
    obtain ⟨⟨vs, after⟩, hread, hrest⟩ := map_eq_ok_iff.mp h
    obtain rfl : after = rest := (Prod.mk.inj hrest).2
    exact ⟨Nat.le_of_lt (length_lt_of_readGroup hitems hread), nofun⟩
  | object =>
    simp only [readBehind] at h
    split at h
    · cases h
    obtain ⟨⟨ms, after⟩, hread, hrest⟩ := map_eq_ok_iff.mp h
    obtain rfl : after = rest := (Prod.mk.inj hrest).2
    exact ⟨Nat.le_of_lt (length_lt_of_readGroup hmembers hread), nofun⟩
  | word w =>
    cases h
    exact ⟨Nat.le_refl _, nofun⟩
  | number =>
    have hlt := length_lt_of_readNumber? (orMalformed_eq_ok_iff.mp h)
    exact ⟨Nat.le_of_lt hlt, fun _ => hlt⟩

/-- Whatever is read, less of the text is left. -/
theorem length_lt_of_read (limits : Limits) (fuel : Nat) :
    (∀ {room cs v rest}, readValue limits fuel room cs = .ok (v, rest) →
      rest.length < cs.length) ∧
    (∀ {room cs vs rest}, readItems limits fuel room cs = .ok (vs, rest) →
      rest.length < cs.length) ∧
    ∀ {room cs ms rest}, readMembers limits fuel room cs = .ok (ms, rest) →
      rest.length < cs.length := by
  -- the three readers call one another with less fuel
  induction fuel with
  | zero =>
    refine ⟨fun h => ?_, fun h => ?_, fun h => ?_⟩
    · rw [readValue] at h
      cases h
    · rw [readItems] at h
      cases h
    · rw [readMembers] at h
      cases h
  | succ fuel ih =>
    obtain ⟨ihValue, ihItems, ihMembers⟩ := ih
    refine ⟨fun {room cs v rest} h => ?_, fun {room cs vs rest} h => ?_,
      fun {room cs ms rest} h => ?_⟩
    · have hblanks := length_skipBlanks_le cs
      have hopening := length_opening_le (skipBlanks cs)
      rw [readValue_succ] at h
      have hbehind := length_le_of_readBehind ihItems ihMembers h
      by_cases hnumber : (opening (skipBlanks cs)).1 = .number
      · have := hbehind.2 hnumber
        omega
      · have := hopening.2 hnumber
        omega
    · rw [readItems_succ] at h
      obtain ⟨⟨v, after⟩, hv, h⟩ := bind_eq_ok_iff.mp h
      have hvalue := ihValue hv
      have hon := length_lt_of_readOn ihItems h
      simp only at hon
      omega
    · rw [readMembers_succ] at h
      obtain ⟨⟨key, after⟩, hkey, h⟩ := bind_eq_ok_iff.mp h
      obtain ⟨⟨v, behind⟩, hv, h⟩ := bind_eq_ok_iff.mp h
      have hlt := length_lt_of_readKey? (orMalformed_eq_ok_iff.mp hkey)
      have hvalue := ihValue hv
      have hon := length_lt_of_readOn ihMembers h
      simp only at hvalue hon
      omega

theorem length_lt_of_readValue (h : readValue limits fuel room cs = .ok (v, rest)) :
    rest.length < cs.length := (length_lt_of_read limits fuel).1 h

/-! ### More fuel -/

theorem readText?_succ_of_lt (h : cs.length < fuel) :
    readText? (fuel + 1) cs = readText? fuel cs := by
  induction fuel generalizing cs with
  | zero => omega
  | succ fuel ih =>
    cases cs with
    | nil => rfl
    | cons c cs =>
      rw [List.length_cons] at h
      rw [readText?, readText?, ih (by omega)]
      congr 2
      cases hescape : readEscape? cs with
      | none => rfl
      | some p =>
        have hlt := length_lt_of_readEscape? hescape
        show (do let q ← readText? (fuel + 1) p.2; _) = _
        rw [ih (by omega)]
        rfl

section Groups

variable {α : Type} {close : Char} {first : α}
  {more more' : List Char → Except Problem (List α × List Char)}

theorem readGroup_congr (h : ∀ ds, ds.length ≤ cs.length → more ds = more' ds) :
    readGroup close more cs = readGroup close more' cs :=
  Reader.onChar_congr (fun _ _ => rfl) (h _ (length_skipBlanks_le cs))

theorem readOn_congr (h : ∀ ds, ds.length < cs.length → more ds = more' ds) :
    readOn close first more cs = readOn close first more' cs := by
  have hblanks := length_skipBlanks_le cs
  refine Reader.onChar_congr (fun _ _ => rfl) (Reader.onChar_congr (fun rest hrest => ?_) rfl)
  rw [h rest (by omega)]

end Groups

theorem readKey?_succ_of_lt (h : cs.length < fuel) :
    readKey? (fuel + 1) cs = readKey? fuel cs := by
  have hblanks := length_skipBlanks_le cs
  rw [readKey?_eq, readKey?_eq]
  refine Reader.onChar_congr (fun rest hrest => ?_) rfl
  rw [Reader.andThen, Reader.andThen, readText?_succ_of_lt (by omega)]

theorem readBehind_succ_of_lt {start : Opening}
    (hitems : ∀ room cs, 2 * cs.length + 1 < fuel →
      readItems limits (fuel + 1) room cs = readItems limits fuel room cs)
    (hmembers : ∀ room cs, 2 * cs.length + 1 < fuel →
      readMembers limits (fuel + 1) room cs = readMembers limits fuel room cs)
    (h : start ≠ .number → 2 * cs.length + 1 < fuel) :
    readBehind limits (fuel + 1) room start cs = readBehind limits fuel room start cs := by
  cases start with
  | text =>
    have hlt := h nofun
    rw [readBehind, readBehind, readText?_succ_of_lt (by omega)]
  | array =>
    have hlt := h nofun
    have hgroup : readGroup ']' (readItems limits (fuel + 1) (room - 1)) cs =
        readGroup ']' (readItems limits fuel (room - 1)) cs :=
      readGroup_congr fun ds hds => hitems _ _ (by omega)
    rw [readBehind, readBehind, hgroup]
  | object =>
    have hlt := h nofun
    have hgroup : readGroup '\x7d' (readMembers limits (fuel + 1) (room - 1)) cs =
        readGroup '\x7d' (readMembers limits fuel (room - 1)) cs :=
      readGroup_congr fun ds hds => hmembers _ _ (by omega)
    rw [readBehind, readBehind, hgroup]
  | word w => rfl
  | number => rfl

theorem read_succ_of_lt (limits : Limits) (fuel : Nat) :
    (∀ room cs, 2 * cs.length < fuel →
      readValue limits (fuel + 1) room cs = readValue limits fuel room cs) ∧
    (∀ room cs, 2 * cs.length + 1 < fuel →
      readItems limits (fuel + 1) room cs = readItems limits fuel room cs) ∧
    ∀ room cs, 2 * cs.length + 1 < fuel →
      readMembers limits (fuel + 1) room cs = readMembers limits fuel room cs := by
  -- an item costs fuel on its own and for the group that it stands in, hence the factor
  induction fuel with
  | zero => exact ⟨nofun, nofun, nofun⟩
  | succ fuel ih =>
    obtain ⟨ihValue, ihItems, ihMembers⟩ := ih
    refine ⟨fun room cs h => ?_, fun room cs h => ?_, fun room cs h => ?_⟩
    · have hblanks := length_skipBlanks_le cs
      have hopening := length_opening_le (skipBlanks cs)
      rw [readValue_succ, readValue_succ, readBehind_succ_of_lt ihItems ihMembers]
      intro hstart
      have := hopening.2 hstart
      omega
    · rw [readItems_succ, readItems_succ]
      refine Reader.andThen_congr (ihValue room cs (by omega)) fun hvalue => ?_
      have hlt := length_lt_of_readValue hvalue
      exact readOn_congr fun ds hds => ihItems _ _ (by omega)
    · rw [readMembers_succ, readMembers_succ]
      refine Reader.andThen_congr (congrArg _ (readKey?_succ_of_lt (by omega))) fun hkey => ?_
      have hlt := length_lt_of_readKey? (orMalformed_eq_ok_iff.mp hkey)
      refine Reader.andThen_congr (ihValue room _ (by omega)) fun hvalue => ?_
      have hlt' := length_lt_of_readValue hvalue
      exact readOn_congr fun ds hds => ihMembers _ _ (by omega)

/-- What is read does not depend on the fuel, if that is more than twice the length of
the text. -/
theorem readValue_of_le (h : 2 * cs.length < fuel) (hle : fuel ≤ fuel') :
    readValue limits fuel' room cs = readValue limits fuel room cs := by
  induction hle with
  | refl => rfl
  | step hle ih => rw [(read_succ_of_lt limits _).1 room cs (Nat.lt_of_lt_of_le h hle), ih]

end Json
end ChronoId
