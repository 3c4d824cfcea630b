/-
# How long identifiers are

An identifier has the width of its timestamp, and behind it one character more
than the logarithm of the sequence with its check digit. The check digit is the
last decimal place, so neither it nor the timestamp makes the identifier of a
smaller sequence the longer one. A range of sequences that keeps between two
powers of the radix, whatever the check digit, has one length.

Key theorems: `Codec.Written.length_mono`, `Codec.Written.length_eq_of_between`,
`Codec.create_length`.
-/
import ChronoId.Proofs.Codec.Order

namespace ChronoId
namespace Codec

variable {c : Codec} {n : Numeral}

/-! ### Written texts -/

section Written

variable {x x' : String} {stamp stamp' : List Char} {s s' d d' k : Nat}

theorem Written.length_eq_log (hw : c.Written n x stamp s d) :
    x.length = c.timestamps.width + (Nat.log n.radix (s * 10 + d) + 1) := by
  rw [hw.length_eq, n.length_write]

/-- The text of a smaller sequence is not the longer one. -/
theorem Written.length_mono (hw : c.Written n x stamp s d) (hw' : c.Written n x' stamp' s' d')
    (h : s < s') : x.length ≤ x'.length := by
  have hd := hw.digit_lt
  rw [hw.length_eq, hw'.length_eq]
  exact Nat.add_le_add_left (n.length_write_mono (by omega)) _

/-- Between two powers of the radix there is one length. -/
theorem Written.length_eq_of_between (hw : c.Written n x stamp s d) (hlow : n.radix ^ k ≤ s * 10)
    (hhigh : s * 10 + 9 < n.radix ^ (k + 1)) : x.length = c.timestamps.width + (k + 1) := by
  have hd := hw.digit_lt
  have hlog : Nat.log n.radix (s * 10 + d) = k :=
    Nat.log_eq_of_pow_le_of_lt_pow (by omega) (by omega)
  rw [hw.length_eq_log, hlog]

/-- The largest sequence bounds all lengths. -/
theorem Written.length_le (hw : c.Written n x stamp s d) (hk : 0 < k) (h : maxValue < n.radix ^ k) :
    x.length ≤ c.timestamps.width + k := by
  have hmax := checked_le_maxValue hw.sequence_le hw.digit_lt
  rw [hw.length_eq]
  exact Nat.add_le_add_left ((n.length_write_le_iff hk).mpr (hmax.trans_lt h)) _

end Written

/-! ### Created identifiers -/

/-- Of all that a codec creates, at whatever timestamps, an identifier has the
width of the timestamp and the digits of the sequence with its check digit, and
no identifier is shorter than that of a smaller sequence. With the default
alphabet and width there are ten to twenty-two characters, and fourteen from
1050000 to 3355442. -/
theorem create_length [Host] {source : Settings.Source} {shared : Option Instant} {c : Codec}
    (h : (build source none shared).result = .ok c) :
    ∃ n : Numeral, c.settings.alphabet = .text n.alphabet ∧
      c.settings.timestampWidth = .int c.timestamps.width ∧
      (∀ v t now r, (c.create v t now).result = .ok r → v = .int r.sequence ∧
        ∃ stamp d, c.Written n r.id stamp r.sequence d ∧ r.id.length =
          c.timestamps.width + (Nat.log n.alphabet.length (r.sequence * 10 + d) + 1)) ∧
      (∀ v₁ t₁ now₁ r₁ v₂ t₂ now₂ r₂, (c.create v₁ t₁ now₁).result = .ok r₁ →
        (c.create v₂ t₂ now₂).result = .ok r₂ → r₁.sequence < r₂.sequence →
        r₁.id.length ≤ r₂.id.length) ∧
      (c.settings.alphabet = Settings.default.alphabet → c.settings.timestampWidth = .int 9 →
        ∀ v t now r, (c.create v t now).result = .ok r →
          10 ≤ r.id.length ∧ r.id.length ≤ 22 ∧
          (1050000 ≤ r.sequence → r.sequence ≤ 3355442 → r.id.length = 14)) := by
  obtain ⟨n, hn⟩ := exists_uses_of_build h
  refine ⟨n, hn.alphabet, c.width_eq, ?_, ?_, ?_⟩
  · intro v t now r hr
    obtain ⟨hv, -, p, d, -, hw⟩ := exists_written_of_create hn hr
    have hradix : n.alphabet.length = n.radix := String.length_ofList
    refine ⟨hv, _, d, hw, ?_⟩
    rw [hradix]
    exact hw.length_eq_log
  · intro v₁ t₁ now₁ r₁ v₂ t₂ now₂ r₂ h₁ h₂ hlt
    obtain ⟨-, -, _, _, -, hw₁⟩ := exists_written_of_create hn h₁
    obtain ⟨-, -, _, _, -, hw₂⟩ := exists_written_of_create hn h₂
    exact hw₁.length_mono hw₂ hlt
  · intro halphabet hwidth v t now r hr
    obtain rfl : n = Numeral.crockford := hn.eq_of_alphabet halphabet rfl
    obtain ⟨-, -, p, d, -, hw⟩ := exists_written_of_create hn hr
    have hradix : Numeral.crockford.radix = 32 := rfl
    have hnine : c.timestamps.width = 9 := by
      have := Value.int.inj (c.width_eq.symm.trans hwidth)
      omega
    have heq := hw.length_eq_log
    have hle := hw.length_le (k := 13) (by norm_num) (by rw [hradix]; decide)
    rw [hnine] at heq hle
    refine ⟨by omega, hle, ?_⟩
    intro hlow hhigh
    have hfive := hw.length_eq_of_between (k := 4) (by rw [hradix]; omega) (by rw [hradix]; omega)
    rw [hfive, hnine]

section Ample

attribute [local instance] Host.ample

/-- The default codec creates fourteen characters of the sequence 1050000, and
no more of the sequence seven. -/
theorem create_length_default : ∃ c x y,
    (build .defaults none (some .start)).result = .ok c ∧
      (c.create (.int 7) (.moment ⟨.start, none⟩) ⟨.start, none⟩).result = .ok ⟨x, .start, 7⟩ ∧
      (c.create (.int 1050000) (.moment ⟨.start, none⟩) ⟨.start, none⟩).result =
        .ok ⟨y, .start, 1050000⟩ ∧
      x.length ≤ y.length ∧ y.length = 14 := by
  obtain ⟨c, hc, hsettings, htimestamps, hn⟩ := exists_build_defaults .start
  have hcreate : ∀ s : Nat, s ≤ Settings.maxSequence → ∃ x,
      (c.create (.int s) (.moment ⟨.start, none⟩) ⟨.start, none⟩).result = .ok ⟨x, .start, s⟩ := by
    intro s hs
    obtain ⟨x, hx, -⟩ := exists_createAt_default (by decide) hn hsettings htimestamps (t := .start) hs
      le_rfl (by decide)
    exact ⟨x, (create_of_ok (sequenceOf_natCast hs) rfl).trans hx⟩
  obtain ⟨x, hx⟩ := hcreate 7 (by decide)
  obtain ⟨y, hy⟩ := hcreate 1050000 (by decide)
  obtain ⟨n, -, -, -, hmono, hdefault⟩ := create_length hc
  obtain ⟨-, -, hfourteen⟩ := hdefault (by rw [hsettings]) (by rw [hsettings]; rfl) _ _ _ _ hy
  exact ⟨c, x, y, hc, hx, hy, hmono _ _ _ _ _ _ _ _ hx hy (by norm_num),
    hfourteen le_rfl (by norm_num)⟩

end Ample

end Codec
end ChronoId
