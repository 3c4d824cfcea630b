/-
# JSON does not depend on line ends

A carriage return is a blank of JSON and so is a line feed, and neither may
stand inside a text, a number or a word. So it makes no difference to what is
read if all line ends of a text become line feeds. A reader that behaves so
leaves the same, too, up to line ends; this is kept by all the ways in which
readers are put together.

Key definitions: `IgnoresLineEnds`.
Key theorems: `IgnoresLineEnds.bind`, `IgnoresLineEnds.onChar`,
`Json.ignoresLineEnds_readValue`, `Json.read_unifyLineEnds`.
-/
import ChronoId.Proofs.Json.Reading
import ChronoId.Settings.Environment

namespace ChronoId

/-! ### Line ends -/

theorem unifyLineEnds_cons {c : Char} (h : c ≠ '\r') (cs : List Char) :
    unifyLineEnds (c :: cs) = c :: unifyLineEnds cs := by
  rw [unifyLineEnds]
  · rintro _ rfl
    exact absurd rfl h
  · exact h

theorem exists_unifyLineEnds_return (cs : List Char) :
    ∃ ds, unifyLineEnds ('\r' :: cs) = '\n' :: ds := by
  cases cs with
  | nil => exact ⟨[], rfl⟩
  | cons c cs =>
    by_cases h : c = '\n'
    · exact ⟨unifyLineEnds cs, by rw [h, unifyLineEnds]⟩
    · exact ⟨unifyLineEnds (c :: cs), by rw [unifyLineEnds]; simpa using h⟩

/-- The first character only changes if it is a carriage return. -/
theorem unifyLineEnds_cases (cs : List Char) :
    cs = [] ∨ (∃ ds es, cs = '\r' :: ds ∧ unifyLineEnds cs = '\n' :: es) ∨
      ∃ c ds, c ≠ '\r' ∧ cs = c :: ds ∧ unifyLineEnds cs = c :: unifyLineEnds ds := by
  cases cs with
  | nil => exact Or.inl rfl
  | cons c cs =>
    by_cases h : c = '\r'
    · obtain ⟨es, hes⟩ := exists_unifyLineEnds_return cs
      exact Or.inr (Or.inl ⟨cs, es, by rw [h], by rw [h, hes]⟩)
    · exact Or.inr (Or.inr ⟨c, cs, h, rfl, unifyLineEnds_cons h cs⟩)

/-- Where no line end is read, none was. -/
theorem eq_append_of_unifyLineEnds {w cs rest : List Char} (hw : '\n' ∉ w)
    (h : unifyLineEnds cs = w ++ rest) : ∃ ds, cs = w ++ ds ∧ rest = unifyLineEnds ds := by
  induction w generalizing cs with
  | nil => exact ⟨cs, rfl, h.symm⟩
  | cons c w ih =>
    rw [List.mem_cons, not_or] at hw
    rcases unifyLineEnds_cases cs with rfl | ⟨ds, es, -, hreturn⟩ | ⟨d, ds, -, rfl, hcons⟩
    · cases h
    · rw [h] at hreturn
      exact absurd (List.cons.inj hreturn).1.symm hw.1
    · rw [h, List.cons_append] at hcons
      obtain ⟨rfl, htail⟩ := List.cons.inj hcons
      obtain ⟨es, rfl, hrest⟩ := ih hw.2 htail.symm
      exact ⟨es, rfl, hrest⟩

theorem length_unifyLineEnds_le (cs : List Char) : (unifyLineEnds cs).length ≤ cs.length := by
  fun_induction unifyLineEnds cs with
  | case1 => exact Nat.le_refl _
  | case2 cs ih => exact Nat.succ_le_succ (Nat.le_succ_of_le ih)
  | case3 cs h ih => exact Nat.succ_le_succ ih
  | case4 c cs h h' ih => exact Nat.succ_le_succ ih

theorem isEmpty_unifyLineEnds (cs : List Char) : (unifyLineEnds cs).isEmpty = cs.isEmpty := by
  fun_cases unifyLineEnds cs <;> rfl

/-- A reader takes the same from a text whichever line ends that has. -/
def IgnoresLineEnds {m : Type → Type} [Functor m] {α : Type}
    (read : List Char → m (α × List Char)) : Prop :=
  ∀ cs, read (unifyLineEnds cs) = (fun p => (p.1, unifyLineEnds p.2)) <$> read cs

namespace IgnoresLineEnds

section Choices

variable {m : Type → Type} [Functor m] {α : Type} {read read' : List Char → m (α × List Char)}

theorem congr (h : ∀ cs, read cs = read' cs) (hread : IgnoresLineEnds read') :
    IgnoresLineEnds read := by
  intro cs
  rw [h, h, hread]

theorem ite {P : Prop} [Decidable P] (hread : IgnoresLineEnds read)
    (hread' : IgnoresLineEnds read') :
    IgnoresLineEnds fun cs => if P then read cs else read' cs := by
  by_cases h : P
  · simpa only [if_pos h] using hread
  · simpa only [if_neg h] using hread'

/-- No line end starts with a character that is none itself. -/
theorem onChar {c : Char} (hreturn : c ≠ '\r') (hfeed : c ≠ '\n') (hread : IgnoresLineEnds read)
    (hread' : IgnoresLineEnds read') : IgnoresLineEnds (Reader.onChar c read read') := by
  intro cs
  by_cases h : ∃ rest, cs = c :: rest
  · obtain ⟨rest, rfl⟩ := h
    rw [unifyLineEnds_cons hreturn, Reader.onChar_cons, Reader.onChar_cons, hread]
  · have hcs : ∀ rest, cs ≠ c :: rest := fun rest hrest => h ⟨rest, hrest⟩
    have hunified : ∀ rest, unifyLineEnds cs ≠ c :: rest := by
      intro rest hrest
      obtain ⟨ds, hds, -⟩ :=
        eq_append_of_unifyLineEnds (w := [c]) (by simpa using hfeed.symm) hrest
      exact hcs ds hds
    rw [Reader.onChar_of_ne hunified, Reader.onChar_of_ne hcs, hread']

end Choices

section Sequences

variable {m : Type → Type} [Monad m] [LawfulMonad m] {α β : Type}
  {read : List Char → m (α × List Char)} {next : α → List Char → m (β × List Char)}

theorem andThen (hread : IgnoresLineEnds read) (hnext : ∀ a, IgnoresLineEnds (next a)) :
    IgnoresLineEnds (Reader.andThen read next) := by
  intro cs
  rw [Reader.andThen, Reader.andThen, hread cs, bind_map_left, map_bind]
  exact congrArg _ (funext fun p => hnext p.1 p.2)

theorem map (g : α → β) (hread : IgnoresLineEnds read) :
    IgnoresLineEnds fun cs => (fun p => (g p.1, p.2)) <$> read cs := by
  intro cs
  show (fun p => (g p.1, p.2)) <$> read (unifyLineEnds cs) =
    (fun p => (p.1, unifyLineEnds p.2)) <$> (fun p => (g p.1, p.2)) <$> read cs
  rw [hread cs, Functor.map_map, Functor.map_map]

end Sequences

end IgnoresLineEnds

/-! ### Numbers -/

namespace Decimal

theorem spanDigits_unifyLineEnds (cs : List Char) : Text.spanDigits (unifyLineEnds cs) =
    ((Text.spanDigits cs).1, unifyLineEnds (Text.spanDigits cs).2) := by
  induction cs with
  | nil => rfl
  | cons c cs ih =>
    cases hdigit : Text.asciiDigit? c with
    | none =>
      rw [Text.spanDigits_of_none hdigit]
      rcases unifyLineEnds_cases (c :: cs) with h | ⟨ds, es, -, h⟩ | ⟨d, ds, -, hcons, h⟩
      · cases h
      · rw [h]
        rfl
      · cases hcons
        rw [h, Text.spanDigits_of_none hdigit]
    | some d =>
      have hreturn : c ≠ '\r' := by
        rintro rfl
        cases hdigit
      rw [unifyLineEnds_cons hreturn, Text.spanDigits_of_some hdigit, ih,
        Text.spanDigits_of_some hdigit]

theorem ignoresLineEnds_someDigits? : IgnoresLineEnds someDigits? := by
  intro cs
  unfold someDigits?
  rw [spanDigits_unifyLineEnds]
  obtain ⟨ds, rest⟩ := Text.spanDigits cs
  cases ds <;> rfl

theorem ignoresLineEnds_wholeDigits? : IgnoresLineEnds wholeDigits? :=
  .congr wholeDigits?_eq
    (.onChar (by decide) (by decide) (fun _ => rfl) ignoresLineEnds_someDigits?)

theorem ignoresLineEnds_fractionDigits? : IgnoresLineEnds fractionDigits? :=
  .congr fractionDigits?_eq
    (.onChar (by decide) (by decide) ignoresLineEnds_someDigits? fun _ => rfl)

theorem ignoresLineEnds_signedDigits? (negative : Bool) :
    IgnoresLineEnds (signedDigits? negative) :=
  .andThen ignoresLineEnds_someDigits? fun _ _ => rfl

theorem ignoresLineEnds_behindLetter? : IgnoresLineEnds behindLetter? :=
  .onChar (by decide) (by decide) (ignoresLineEnds_signedDigits? true)
    (.onChar (by decide) (by decide) (ignoresLineEnds_signedDigits? false)
      (ignoresLineEnds_signedDigits? false))

theorem ignoresLineEnds_exponent? : IgnoresLineEnds exponent? :=
  .congr exponent?_eq
    (.onChar (by decide) (by decide) ignoresLineEnds_behindLetter?
      (.onChar (by decide) (by decide) ignoresLineEnds_behindLetter? fun _ => rfl))

theorem ignoresLineEnds_readBody? (negative : Bool) : IgnoresLineEnds (readBody? negative) :=
  .andThen ignoresLineEnds_wholeDigits? fun _ => .andThen ignoresLineEnds_fractionDigits? fun _ =>
    .andThen ignoresLineEnds_exponent? fun _ _ => rfl

theorem ignoresLineEnds_read? : IgnoresLineEnds read? :=
  .congr read?_eq
    (.onChar (by decide) (by decide) (ignoresLineEnds_readBody? true)
      (ignoresLineEnds_readBody? false))

end Decimal

/-! ### Texts -/

namespace Json

theorem skipBlanks_unifyLineEnds (cs : List Char) :
    skipBlanks (unifyLineEnds cs) = unifyLineEnds (skipBlanks cs) := by
  fun_induction unifyLineEnds cs with
  | case1 => rfl
  | case2 cs ih => exact ih
  | case3 cs h ih => exact ih
  | case4 c cs h h' ih =>
    by_cases hblank : isBlank c = true
    · rw [skipBlanks_cons_of_isBlank hblank, skipBlanks_cons_of_isBlank hblank, ih]
    · rw [skipBlanks_cons_of_not_isBlank hblank, skipBlanks_cons_of_not_isBlank hblank,
        unifyLineEnds_cons h']

theorem ignoresLineEnds_hexDigit? : IgnoresLineEnds hexDigit? := by
  intro cs
  rcases unifyLineEnds_cases cs with rfl | ⟨ds, es, rfl, h⟩ | ⟨c, ds, -, rfl, h⟩
  · rfl
  · rw [h]
    rfl
  · rw [h, hexDigit?, hexDigit?]
    cases hexValue? c <;> rfl

theorem ignoresLineEnds_readUnit? : IgnoresLineEnds readUnit? :=
  .congr readUnit?_eq (.andThen ignoresLineEnds_hexDigit? fun _ =>
    .andThen ignoresLineEnds_hexDigit? fun _ => .andThen ignoresLineEnds_hexDigit? fun _ =>
      .andThen ignoresLineEnds_hexDigit? fun _ _ => rfl)

theorem ignoresLineEnds_readLowHalf? : IgnoresLineEnds readLowHalf? :=
  .congr readLowHalf?_eq
    (.onChar (by decide) (by decide)
      (.onChar (by decide) (by decide)
        (.andThen ignoresLineEnds_readUnit? fun _ => .ite (fun _ => rfl) fun _ => rfl) fun _ => rfl)
      fun _ => rfl)

theorem ignoresLineEnds_readEscapedUnit? : IgnoresLineEnds readEscapedUnit? :=
  .congr readEscapedUnit?_eq
    (.andThen ignoresLineEnds_readUnit? fun _ =>
      .ite (.andThen ignoresLineEnds_readLowHalf? fun _ _ => rfl)
        (.ite (fun _ => rfl) fun _ => rfl))

theorem ignoresLineEnds_readEscape? : IgnoresLineEnds readEscape? := by
  intro cs
  rcases unifyLineEnds_cases cs with rfl | ⟨ds, es, rfl, h⟩ | ⟨c, ds, -, rfl, h⟩
  · rfl
  · rw [h]
    rfl
  · rw [h, readEscape?_cons, readEscape?_cons]
    split
    · exact ignoresLineEnds_readEscapedUnit? ds
    · cases shortEscape? c <;> rfl

theorem ignoresLineEnds_readText? (fuel : Nat) : IgnoresLineEnds (readText? fuel) := by
  induction fuel with
  | zero => exact fun _ => rfl
  | succ fuel ih =>
    intro cs
    rcases unifyLineEnds_cases cs with rfl | ⟨ds, es, rfl, h⟩ | ⟨c, ds, -, rfl, h⟩
    · rfl
    · -- a text holds no line end of any kind
      rw [h]
      rfl
    · have hescape : IgnoresLineEnds (Reader.andThen readEscape? fun d =>
          Reader.andThen (readText? fuel) fun ds rest => some (d :: ds, rest)) :=
        .andThen ignoresLineEnds_readEscape? fun _ => .andThen ih fun _ _ => rfl
      have hplain : IgnoresLineEnds (Reader.andThen (readText? fuel) fun ds rest =>
          some (c :: ds, rest)) := .andThen ih fun _ _ => rfl
      rw [h, readText?, readText?]
      split
      · rfl
      split
      · exact hescape ds
      split
      · rfl
      · exact hplain ds

theorem behindBlanks {m : Type → Type} [Functor m] {α : Type}
    {read : List Char → m (α × List Char)} (h : IgnoresLineEnds read) :
    IgnoresLineEnds fun cs => read (skipBlanks cs) := by
  intro cs
  show read (skipBlanks (unifyLineEnds cs)) = _
  rw [skipBlanks_unifyLineEnds, h]

theorem ignoresLineEnds_readKey? (fuel : Nat) : IgnoresLineEnds (readKey? fuel) :=
  .congr (readKey?_eq fuel)
    (behindBlanks
      (.onChar (by decide) (by decide)
        (.andThen (ignoresLineEnds_readText? fuel) fun _ =>
          behindBlanks (.onChar (by decide) (by decide) (fun _ => rfl) fun _ => rfl))
        fun _ => rfl))

/-! ### Values -/

variable {limits : Limits} {fuel room : Nat}

theorem ignoresLineEnds_readNumber? (limits : Limits) : IgnoresLineEnds (readNumber? limits) := by
  refine .congr (readNumber?_eq limits) (.andThen Decimal.ignoresLineEnds_read? fun d cs => ?_)
  cases worth? limits d <;> rfl

theorem opening_unifyLineEnds (cs : List Char) :
    opening (unifyLineEnds cs) = ((opening cs).1, unifyLineEnds (opening cs).2) := by
  fun_cases opening cs with
  | case7 cs hquote hbracket hbrace hnull htrue hfalse =>
    -- what starts a value after unifying has started it before
    unfold opening
    split
    · next h =>
      obtain ⟨ds, hds, -⟩ := eq_append_of_unifyLineEnds (w := ['"']) (by decide) h
      exact absurd hds (hquote ds)
    · next h =>
      obtain ⟨ds, hds, -⟩ := eq_append_of_unifyLineEnds (w := ['[']) (by decide) h
      exact absurd hds (hbracket ds)
    · next h =>
      obtain ⟨ds, hds, -⟩ := eq_append_of_unifyLineEnds (w := ['\x7b']) (by decide) h
      exact absurd hds (hbrace ds)
    · next h =>
      obtain ⟨ds, hds, -⟩ := eq_append_of_unifyLineEnds (w := "null".toList) (by decide) h
      exact absurd hds (hnull ds)
    · next h =>
      obtain ⟨ds, hds, -⟩ := eq_append_of_unifyLineEnds (w := "true".toList) (by decide) h
      exact absurd hds (htrue ds)
    · next h =>
      obtain ⟨ds, hds, -⟩ := eq_append_of_unifyLineEnds (w := "false".toList) (by decide) h
      exact absurd hds (hfalse ds)
    · rfl
  | _ => simp [unifyLineEnds_cons, opening]

theorem ignoresLineEnds_orMalformed {α : Type} {read : List Char → Option (α × List Char)}
    (h : IgnoresLineEnds read) : IgnoresLineEnds fun cs => orMalformed (read cs) := by
  intro cs
  show orMalformed (read (unifyLineEnds cs)) =
    (fun p => (p.1, unifyLineEnds p.2)) <$> orMalformed (read cs)
  rw [h]
  cases read cs <;> rfl

section Groups

variable {α : Type} {close : Char} {more : List Char → Except Problem (List α × List Char)}

theorem ignoresLineEnds_readGroup (hreturn : close ≠ '\r') (hfeed : close ≠ '\n')
    (h : IgnoresLineEnds more) : IgnoresLineEnds (readGroup close more) :=
  behindBlanks (.onChar hreturn hfeed (fun _ => rfl) h)

theorem ignoresLineEnds_readOn (hreturn : close ≠ '\r') (hfeed : close ≠ '\n') (first : α)
    (h : IgnoresLineEnds more) : IgnoresLineEnds (readOn close first more) :=
  behindBlanks (.onChar hreturn hfeed (fun _ => rfl)
    (.onChar (by decide) (by decide) (h.map (first :: ·)) fun _ => rfl))

end Groups

theorem ignoresLineEnds_readBehind (hitems : ∀ room, IgnoresLineEnds (readItems limits fuel room))
    (hmembers : ∀ room, IgnoresLineEnds (readMembers limits fuel room)) (start : Opening) :
    IgnoresLineEnds (readBehind limits fuel room start) := by
  intro cs
  cases start with
  | text =>
    exact (ignoresLineEnds_orMalformed (ignoresLineEnds_readText? fuel)).map
      (fun ds => Value.text (String.ofList ds)) cs
  | array =>
    simp only [readBehind]
    split
    · rfl
    · exact (ignoresLineEnds_readGroup (by decide) (by decide) (hitems _)).map Value.array cs
  | object =>
    simp only [readBehind]
    split
    · rfl
    · exact (ignoresLineEnds_readGroup (by decide) (by decide) (hmembers _)).map
        (fun ms => Value.object (collect ms)) cs
  | word w => rfl
  | number => exact ignoresLineEnds_orMalformed (ignoresLineEnds_readNumber? limits) cs

theorem ignoresLineEnds_read (limits : Limits) (fuel : Nat) :
    (∀ room, IgnoresLineEnds (readValue limits fuel room)) ∧
    (∀ room, IgnoresLineEnds (readItems limits fuel room)) ∧
    ∀ room, IgnoresLineEnds (readMembers limits fuel room) := by
  induction fuel with
  | zero =>
    refine ⟨fun room cs => ?_, fun room cs => ?_, fun room cs => ?_⟩
    · rw [readValue, readValue]
      rfl
    · rw [readItems, readItems]
      rfl
    · rw [readMembers, readMembers]
      rfl
  | succ fuel ih =>
    obtain ⟨ihValue, ihItems, ihMembers⟩ := ih
    refine ⟨fun room cs => ?_, fun room => ?_, fun room => ?_⟩
    · rw [readValue_succ, readValue_succ, skipBlanks_unifyLineEnds, opening_unifyLineEnds]
      exact ignoresLineEnds_readBehind ihItems ihMembers _ _
    · exact .congr (readItems_succ limits fuel room)
        (.andThen (ihValue room) fun v =>
          ignoresLineEnds_readOn (by decide) (by decide) v (ihItems room))
    · exact .congr (readMembers_succ limits fuel room)
        (.andThen (ignoresLineEnds_orMalformed (ignoresLineEnds_readKey? fuel)) fun key =>
          .andThen (ihValue room) fun v =>
            ignoresLineEnds_readOn (by decide) (by decide) (key, v) (ihMembers room))

/-- What a JSON text says does not depend on the line ends in it. -/
theorem read_unifyLineEnds [Host] (text : String) :
    read (String.ofList (unifyLineEnds text.toList)) = read text := by
  -- the fuel is that of the text's length, which unifying may reduce
  have hfuel : readValue Limits.ofHost (2 * (unifyLineEnds text.toList).length + 2)
      Limits.ofHost.depth (unifyLineEnds text.toList) =
        readValue Limits.ofHost (2 * text.toList.length + 2) Limits.ofHost.depth
          (unifyLineEnds text.toList) := by
    have hlength := length_unifyLineEnds_le text.toList
    exact (readValue_of_le (by omega) (by omega)).symm
  unfold read readWithin
  simp only [String.toList_ofList]
  rw [hfuel, (ignoresLineEnds_read _ _).1]
  cases readValue Limits.ofHost (2 * text.toList.length + 2) Limits.ofHost.depth
    text.toList with
  | error problem => rfl
  | ok p =>
    show (if (skipBlanks (unifyLineEnds p.2)).isEmpty then _ else _) =
      (if (skipBlanks p.2).isEmpty then _ else _)
    rw [skipBlanks_unifyLineEnds, isEmpty_unifyLineEnds]

end Json
end ChronoId
