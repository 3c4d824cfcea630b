/-
# Written objects are read back

A text that was written is read back whatever stands behind it, and a natural
number is if a comma or a brace stands behind it. So an object of such members
under different keys is read back, and an identifier in JSON is the object of
its text, its timestamp and its sequence.

Key definitions: `Json.Readable`.
Key theorems: `Json.readable_text`, `Json.readable_natural`,
`Json.readMembers_write`, `Json.read_write_object`, `Identifier.read_json`.
-/
import ChronoId.Proofs.Json
import ChronoId.Proofs.Json.Reading

namespace ChronoId
namespace Json

variable {limits : Limits} {fuel room : Nat} {cs rest : List Char}

/-! ### Starts -/

theorem opening_of_isDigit {c : Char} (h : c.isDigit = true) (cs : List Char) :
    opening (c :: cs) = (.number, c :: cs) := by
  unfold opening
  split
  case h_7 => rfl
  all_goals
    next heq =>
    obtain ⟨rfl, -⟩ := List.cons.inj heq
    exact absurd h (by decide)

theorem not_isBlank_of_isDigit {c : Char} (h : c.isDigit = true) : ¬ isBlank c = true := by
  intro hblank
  simp only [isBlank, Bool.or_eq_true, decide_eq_true_eq] at hblank
  rcases hblank with ((rfl | rfl) | rfl) | rfl <;> exact absurd h (by decide)

/-! ### Members -/

/-- What stands behind a member: a comma or the closing brace. -/
def EndsMember (rest : List Char) : Prop :=
  ∃ c after, rest = c :: after ∧ (c = ',' ∨ c = '\x7d')

/-- A value that is read back from what was written of it, in front of the end of a
member. -/
def Readable (limits : Limits) (v : Value) : Prop :=
  ∀ {fuel room : Nat} {rest : List Char}, (write v).length < fuel → EndsMember rest →
    readValue limits fuel room (write v ++ rest) = .ok (v, rest)

theorem length_le_escapes (cs : List Char) : cs.length ≤ (cs.flatMap escape).length := by
  have hone : ∀ c, 1 ≤ (escape c).length := by
    intro c
    unfold escape
    split_ifs <;> simp
  induction cs with
  | nil => exact Nat.zero_le _
  | cons c cs ih =>
    have := hone c
    rw [List.flatMap_cons, List.length_append, List.length_cons]
    omega

theorem length_lt_writeText (cs : List Char) : cs.length + 2 ≤ (writeText cs).length := by
  have := length_le_escapes cs
  simp only [writeText, List.length_cons, List.length_append, List.length_nil]
  omega

theorem readable_text (limits : Limits) (s : String) : Readable limits (.text s) := by
  intro fuel room rest hfuel hrest
  have hlength := length_lt_writeText s.toList
  obtain ⟨fuel, rfl⟩ : ∃ k, fuel = k + 1 := ⟨fuel - 1, by omega⟩
  rw [write] at hfuel
  have hread : readText? fuel (s.toList.flatMap escape ++ '"' :: rest) = some (s.toList, rest) :=
    readText?_escapes (by omega) rest
  rw [readValue_succ]
  have hopening : opening (skipBlanks (write (.text s) ++ rest)) =
      (.text, s.toList.flatMap escape ++ '"' :: rest) := by
    simp only [write, writeText, List.cons_append, List.append_assoc, List.nil_append]
    rfl
  rw [hopening, readBehind, hread]
  simp [orMalformed, Except.map]

/-- A natural number that is not too long is read back. -/
theorem readable_natural {n : Nat} (h : (Natural.write n).length ≤ limits.wholeLength) :
    Readable limits (.int n) := by
  intro fuel room rest hfuel hrest
  obtain ⟨fuel, rfl⟩ : ∃ k, fuel = k + 1 := ⟨fuel - 1, by omega⟩
  have hwrite : write (.int n) = Natural.write n := rfl
  obtain ⟨c, digits, hdigits⟩ := List.exists_cons_of_ne_nil (Natural.write_ne_nil n)
  have hc : c.isDigit = true :=
    Natural.isDigit_of_mem_write (by rw [hdigits]; exact List.mem_cons_self)
  have hopening : opening (skipBlanks (Natural.write n ++ rest)) =
      (.number, Natural.write n ++ rest) := by
    rw [hdigits, List.cons_append, skipBlanks_cons_of_not_isBlank (not_isBlank_of_isDigit hc),
      opening_of_isDigit hc]
  have hread : Decimal.read? (Natural.write n ++ rest) =
      some (⟨false, Positional.digits 10 n, [], none⟩, rest) := by
    obtain ⟨c, after, rfl, rfl | rfl⟩ := hrest
    · exact Decimal.read?_write_natural n rfl rfl rfl
    · exact Decimal.read?_write_natural n rfl rfl rfl
  have hworth : worth? limits ⟨false, Positional.digits 10 n, [], none⟩ = some (.int n) := by
    rw [Natural.write, List.length_map] at h
    simp [worth?, Decimal.isWhole, Decimal.toInt, Positional.value_digits, h]
  rw [readValue_succ, hwrite, hopening, readBehind, readNumber?_eq, Reader.andThen, hread]
  simp [orMalformed, hworth]

theorem readKey?_write {key : String} (h : key.toList.length < fuel) (rest : List Char) :
    readKey? fuel (writeText key.toList ++ ':' :: rest) = some (key, rest) := by
  have hread : readText? fuel (key.toList.flatMap escape ++ '"' :: ':' :: rest) =
      some (key.toList, ':' :: rest) := readText?_escapes h _
  have hstart : skipBlanks (writeText key.toList ++ ':' :: rest) =
      '"' :: (key.toList.flatMap escape ++ '"' :: ':' :: rest) := by
    simp only [writeText, List.cons_append, List.append_assoc, List.nil_append]
    rfl
  have hcolon : skipBlanks (':' :: rest) = ':' :: rest := rfl
  rw [readKey?_eq, hstart, Reader.onChar_cons, Reader.andThen, hread]
  simp [hcolon, Reader.onChar_cons]

/-- A member is read back, and what follows it is read on. -/
theorem readMembers_member {key : String} {v : Value} (hv : Readable limits v)
    (hfuel : (writeText key.toList).length + (write v).length < fuel) (hrest : EndsMember rest) :
    readMembers limits (fuel + 1) room (writeText key.toList ++ ':' :: (write v ++ rest)) =
      readOn '\x7d' (key, v) (readMembers limits fuel room) rest := by
  have hlength := length_lt_writeText key.toList
  have hkey : orMalformed (readKey? fuel (writeText key.toList ++ ':' :: (write v ++ rest))) =
      .ok (key, write v ++ rest) := orMalformed_eq_ok_iff.mpr (readKey?_write (by omega) _)
  rw [readMembers_succ, Reader.andThen, hkey, bind_ok, Reader.andThen, hv (by omega) hrest, bind_ok]

/-- Members are read back one after the other. -/
theorem readMembers_write {m : String × Value} {ms : List (String × Value)}
    (hms : ∀ m' ∈ m :: ms, Readable limits m'.2)
    (hfuel : (writeText m.1.toList ++ ':' :: (write m.2 ++ writeMembers ms)).length < fuel) :
    readMembers limits fuel room
      (writeText m.1.toList ++ ':' :: (write m.2 ++ (writeMembers ms ++ rest))) =
        .ok (m :: ms, rest) := by
  obtain ⟨fuel, rfl⟩ : ∃ k, fuel = k + 1 := ⟨fuel - 1, by omega⟩
  have hm : Readable limits m.2 := hms m List.mem_cons_self
  simp only [List.length_append, List.length_cons] at hfuel
  induction ms generalizing m fuel with
  | nil =>
    have hwrite : writeMembers [] ++ rest = '\x7d' :: rest := rfl
    have hclose : skipBlanks ('\x7d' :: rest) = '\x7d' :: rest := rfl
    rw [hwrite, readMembers_member hm (by omega) ⟨'\x7d', rest, rfl, Or.inr rfl⟩, readOn, hclose,
      Reader.onChar_cons]
  | cons m' ms ih =>
    have hwrite : writeMembers (m' :: ms) ++ rest =
        ',' :: (writeText m'.1.toList ++ ':' :: (write m'.2 ++ (writeMembers ms ++ rest))) := by
      simp only [writeMembers, List.cons_append, List.append_assoc]
    have hlength : (writeMembers (m' :: ms)).length = (writeText m'.1.toList).length +
        ((write m'.2).length + (writeMembers ms).length + 1) + 1 := by
      simp only [writeMembers, List.length_append, List.length_cons]
      omega
    have hcomma : ∀ cs, skipBlanks (',' :: cs) = ',' :: cs := fun _ => rfl
    obtain ⟨fuel, rfl⟩ : ∃ k, fuel = k + 1 := ⟨fuel - 1, by omega⟩
    rw [hwrite, readMembers_member hm (by omega) ⟨',', _, rfl, Or.inl rfl⟩, readOn, hcomma,
      Reader.onChar_of_ne (by simp), Reader.onChar_cons,
      ih (fun m'' hm'' => hms m'' (List.mem_cons_of_mem _ hm'')) fuel (hms m' (by simp)) (by omega)]
    rfl

/-! ### Objects -/

theorem put_of_notMem {key : String} {v : Value} {ms : List (String × Value)}
    (h : key ∉ ms.map Prod.fst) : put key v ms = ms ++ [(key, v)] := by
  induction ms with
  | nil => rfl
  | cons m ms ih =>
    rw [List.map_cons, List.mem_cons, not_or] at h
    rw [put, if_neg (Ne.symm h.1), ih h.2, List.cons_append]

theorem foldl_put (object : List (String × Value)) {ms : List (String × Value)}
    (h : ((object ++ ms).map Prod.fst).Nodup) :
    ms.foldl (fun object m => put m.1 m.2 object) object = object ++ ms := by
  induction ms generalizing object with
  | nil => exact (List.append_nil object).symm
  | cons m ms ih =>
    have hm : m.1 ∉ object.map Prod.fst := by
      rw [List.map_append, List.map_cons, List.nodup_append] at h
      exact fun hmem => h.2.2 _ hmem _ List.mem_cons_self rfl
    have hassoc : object ++ m :: ms = (object ++ [m]) ++ ms := by simp
    rw [List.foldl_cons, put_of_notMem hm, ih _ (hassoc ▸ h), ← hassoc]

/-- Members under different keys stay as they are. -/
theorem collect_of_nodup {ms : List (String × Value)} (h : (ms.map Prod.fst).Nodup) :
    collect ms = ms := foldl_put [] h

/-- A written object is read back if its members are. -/
theorem read_write_object [Host] {m : String × Value} {ms : List (String × Value)}
    (hms : ∀ m' ∈ m :: ms, Readable Limits.ofHost m'.2)
    (hkeys : ((m :: ms).map Prod.fst).Nodup) :
    read (String.ofList (write (.object (m :: ms)))) = .ok (.object (m :: ms)) := by
  let body := writeText m.1.toList ++ ':' :: (write m.2 ++ (writeMembers ms ++ []))
  have hwrite : write (.object (m :: ms)) = '\x7b' :: body := by
    simp only [write, body, List.cons_append, List.append_assoc, List.append_nil]
  have hopening : opening (skipBlanks ('\x7b' :: body)) = (.object, body) := rfl
  have hstart : skipBlanks body = body := rfl
  have hmembers : ∀ {fuel room}, 2 * body.length < fuel →
      readMembers Limits.ofHost fuel room body = .ok (m :: ms, []) := by
    intro fuel room hfuel
    refine readMembers_write hms ?_
    simp only [body, List.append_nil] at hfuel
    omega
  have hdepth : Limits.ofHost.depth ≠ 0 := Nat.ne_of_gt Host.depth_pos
  rw [read, readWithin]
  simp only [String.toList_ofList]
  rw [hwrite, readValue_succ, hopening, readBehind, if_neg hdepth, readGroup, hstart,
    Reader.onChar_of_ne (by simp [body, writeText]), hmembers (by simp)]
  simp only [Except.map, collect_of_nodup hkeys, bind_ok]
  rfl

end Json

namespace Identifier

/-- An identifier in JSON is read back as the object of its parts. -/
theorem read_json [Host] {x : Identifier} (h : x.sequence ≤ maxValue) :
    Json.read x.json = .ok x.toValue := by
  have hlength : (Natural.write x.sequence).length ≤ 19 := by
    rw [Natural.write, List.length_map,
      Positional.length_digits_le_iff (by norm_num) (by norm_num)]
    exact lt_of_le_of_lt h (by norm_num [maxValue])
  refine Json.read_write_object ?_ ?_
  · intro m hm
    simp only [List.mem_cons, List.not_mem_nil, or_false] at hm
    rcases hm with rfl | rfl | rfl
    · exact Json.readable_text _ _
    · exact Json.readable_text _ _
    · refine Json.readable_natural (hlength.trans ?_)
      simp [Json.Limits.ofHost]
  · simp

end Identifier
end ChronoId
