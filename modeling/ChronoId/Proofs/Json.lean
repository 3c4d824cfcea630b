/-
# What written JSON says

A text is read back from what was written of it, and so is what stands behind
it. An identifier written as JSON therefore tells its text and its sequence.

Key theorems: `Json.readText?_escapes`, `Json.writeText_append_inj`,
`Identifier.json_inj`.
-/
import ChronoId.Identifier
import ChronoId.Json.Reader
import ChronoId.Proofs.CheckDigit.Digits

namespace ChronoId
namespace Json

/-! ### Texts -/

theorem hexValue?_hexDigit : ∀ {d : Nat}, d < 16 → hexValue? (Text.hexDigit d) = some d := by decide

theorem hex_four {n : Nat} (h : n < 256) :
    Text.hex 4 n = ['0', '0', Text.hexDigit (n / 16), Text.hexDigit (n % 16)] := by
  unfold Text.hex
  by_cases hn : n < 16
  · rw [Positional.digits_of_lt hn, Nat.div_eq_of_lt hn, Nat.mod_eq_of_lt hn]
    rfl
  · rw [Positional.digits_of_le (by norm_num) (by omega),
      Positional.digits_of_lt (by omega)]
    rfl

theorem readUnit?_hex {n : Nat} (h : n < 256) (rest : List Char) :
    readUnit? (Text.hex 4 n ++ rest) = some (n, rest) := by
  have hhigh : hexValue? (Text.hexDigit (n / 16)) = some (n / 16) := hexValue?_hexDigit (by omega)
  have hlow : hexValue? (Text.hexDigit (n % 16)) = some (n % 16) := hexValue?_hexDigit (by omega)
  have hn : ((0 * 16 + 0) * 16 + n / 16) * 16 + n % 16 = n := by omega
  rw [hex_four h]
  show (do
    let c ← hexValue? (Text.hexDigit (n / 16))
    let d ← hexValue? (Text.hexDigit (n % 16))
    some (((0 * 16 + 0) * 16 + c) * 16 + d, rest)) = some (n, rest)
  rw [hhigh, hlow, Option.bind_eq_bind, Option.bind_some, Option.bind_some, hn]

/-- A control character is read back from its code unit. -/
theorem readEscapedUnit?_hex {c : Char} (h : c.toNat < 0x20) (rest : List Char) :
    readEscapedUnit? (Text.hex 4 c.toNat ++ rest) = some (c, rest) := by
  unfold readEscapedUnit?
  rw [readUnit?_hex (by omega)]
  show (if 0xd800 ≤ c.toNat ∧ c.toNat ≤ 0xdbff then _ else
    if 0xdc00 ≤ c.toNat ∧ c.toNat ≤ 0xdfff then _ else _) = _
  rw [if_neg (by omega), if_neg (by omega), Char.ofNat_toNat]

theorem readText?_backslash (fuel : Nat) (cs : List Char) : readText? (fuel + 1) ('\\' :: cs) =
    (readEscape? cs).bind fun p => (readText? fuel p.2).map fun q => (p.1 :: q.1, q.2) := by
  rw [readText?, if_neg (by decide), if_pos rfl]
  cases readEscape? cs with
  | none => rfl
  | some p => cases h : readText? fuel p.2 <;> simp [h]

/-- A character is read back from its escape. -/
theorem readText?_escape (c : Char) (fuel : Nat) (rest : List Char) :
    readText? (fuel + 1) (escape c ++ rest) =
      (readText? fuel rest).map fun p => (c :: p.1, p.2) := by
  -- All escapes start with a backslash.
  have hescape : ∀ es, readEscape? (es ++ rest) = some (c, rest) →
      readText? (fuel + 1) ('\\' :: es ++ rest) =
        (readText? fuel rest).map fun p => (c :: p.1, p.2) := by
    intro es h
    rw [List.cons_append, readText?_backslash, h, Option.bind_some]
  unfold escape
  split
  · next h => exact hescape ['"'] (by rw [h]; rfl)
  split
  · next h => exact hescape ['\\'] (by rw [h]; rfl)
  split
  · next h => exact hescape ['n'] (by rw [h]; rfl)
  split
  · next h => exact hescape ['t'] (by rw [h]; rfl)
  split
  · next h => exact hescape ['r'] (by rw [h]; rfl)
  split
  · next h => exact hescape ['b'] (by rw [h]; rfl)
  split
  · next h => exact hescape ['f'] (by rw [h]; rfl)
  split
  · next h => exact hescape ('u' :: Text.hex 4 c.toNat) (readEscapedUnit?_hex h rest)
  · next hquote hbackslash _ _ _ _ _ hcontrol =>
    rw [List.cons_append, List.nil_append, readText?, if_neg hquote, if_neg hbackslash,
      if_neg hcontrol]
    cases readText? fuel rest <;> rfl

/-- The characters of a text are read back from their escapes. -/
theorem readText?_escapes {cs : List Char} {fuel : Nat} (h : cs.length < fuel) (rest : List Char) :
    readText? fuel (cs.flatMap escape ++ '"' :: rest) = some (cs, rest) := by
  induction cs generalizing fuel with
  | nil =>
    obtain ⟨fuel, rfl⟩ : ∃ k, fuel = k + 1 := ⟨fuel - 1, by simp at h; omega⟩
    rfl
  | cons c cs ih =>
    obtain ⟨fuel, rfl⟩ : ∃ k, fuel = k + 1 := ⟨fuel - 1, by simp at h; omega⟩
    rw [List.flatMap_cons, List.append_assoc, readText?_escape,
      ih (by simpa using h)]
    rfl

/-- A written text is known, and so is what stands behind it. -/
theorem writeText_append_inj {cs ds rest rest' : List Char}
    (h : writeText cs ++ rest = writeText ds ++ rest') : cs = ds ∧ rest = rest' := by
  simp only [writeText, List.cons_append, List.append_assoc, List.nil_append, List.cons.injEq,
    true_and] at h
  have hcs := readText?_escapes (Nat.lt_succ_of_le (le_max_left cs.length ds.length)) rest
  have hds := readText?_escapes (Nat.lt_succ_of_le (le_max_right cs.length ds.length)) rest'
  rw [h, hds] at hcs
  cases hcs
  exact ⟨rfl, rfl⟩

end Json

/-! ### Identifiers -/

namespace Identifier

theorem toList_json (x : Identifier) : x.json.toList =
    '\x7b' :: (Json.writeText "id".toList ++ ':' :: (Json.writeText x.id.toList ++
      ',' :: (Json.writeText "timestamp".toList ++ ':' :: (Json.writeText x.timestamp.writeJson ++
        ',' :: (Json.writeText "sequence".toList ++ ':' :: (Natural.write x.sequence ++
          ['\x7d'])))))) := by
  simp only [json, toValue, Json.write, Json.writeMembers, String.toList_ofList, List.cons_append,
    List.append_assoc]
  rfl

/-- The JSON text of an identifier tells its text and its sequence. -/
theorem json_inj {x y : Identifier} (h : x.json = y.json) :
    x.id = y.id ∧ x.sequence = y.sequence := by
  have h := congrArg String.toList h
  rw [toList_json, toList_json] at h
  obtain ⟨-, h⟩ := Json.writeText_append_inj (List.cons.inj h).2
  obtain ⟨hid, h⟩ := Json.writeText_append_inj (List.cons.inj h).2
  obtain ⟨-, h⟩ := Json.writeText_append_inj (List.cons.inj h).2
  obtain ⟨-, h⟩ := Json.writeText_append_inj (List.cons.inj h).2
  obtain ⟨-, h⟩ := Json.writeText_append_inj (List.cons.inj h).2
  have hsequence := List.append_cancel_right (List.cons.inj h).2
  exact ⟨String.toList_inj.mp hid, Natural.write_inj hsequence⟩

end Identifier
end ChronoId
