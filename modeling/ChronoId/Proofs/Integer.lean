/-
# Whole numbers that are read and shown

The reader takes a number by its digits, and not too many of them, so what it
reads lies below a power of ten. The same power decides whether the wording of a
rejection can show a number.

Key theorems: `Integer.lt_ten_of_mem_moreDigits`, `Integer.natAbs_lt_of_read?`,
`Error.showing_of_lt`, `Error.showing_of_le`.
-/
import ChronoId.Fault
import ChronoId.Proofs.Positional

namespace ChronoId

theorem Text.asciiDigit?_lt_ten {c : Char} {d : Nat} (h : asciiDigit? c = some d) : d < 10 := by
  unfold asciiDigit? at h
  split at h
  · next hdigit =>
    have hrange : 48 ≤ c.toNat ∧ c.toNat ≤ 57 := Char.isDigit_iff_toNat.mp hdigit
    cases h
    show c.toNat - 48 < 10
    omega
  · cases h

namespace Integer

variable {cs : List Char}

theorem lt_ten_of_mem_moreDigits (cs : List Char) : ∀ d ∈ (moreDigits cs).1, d < 10 := by
  fun_induction moreDigits cs with
  | case1 => exact nofun
  | case2 c rest d hd ds r hrest ih =>
    rw [hrest] at ih
    exact List.forall_mem_cons.mpr ⟨Text.asciiDigit?_lt_ten hd, ih⟩
  | case3 => exact nofun
  | case4 c rest d hd ds r hrest _ ih =>
    rw [hrest] at ih
    exact List.forall_mem_cons.mpr ⟨Text.asciiDigit?_lt_ten hd, ih⟩
  | case5 => exact nofun
  | case6 => exact nofun

theorem lt_of_readUnsigned? {n : Nat} (h : readUnsigned? cs = some n) : n < 10 ^ maxDigits := by
  unfold readUnsigned? at h
  split at h
  · cases h
  · next ds rest hrun =>
    split at h
    · next hsize =>
      cases h
      have hdigits : ∀ d ∈ ds, d < 10 := by
        cases cs with
        | nil => cases hrun
        | cons c cs =>
          obtain ⟨d, hd, hds⟩ := Option.map_eq_some_iff.mp hrun
          cases hds
          exact List.forall_mem_cons.mpr
            ⟨Text.asciiDigit?_lt_ten hd, lt_ten_of_mem_moreDigits cs⟩
      have hlength : ds.length ≤ maxDigits := by simpa using (Bool.and_eq_true_iff.mp hsize).2
      exact (Positional.value_lt_pow (by decide) hdigits).trans_le
        (Nat.pow_le_pow_right (by decide) hlength)
    · cases h

theorem natAbs_lt_of_readAscii? {i : Int} (h : readAscii? cs = some i) :
    i.natAbs < 10 ^ maxDigits := by
  unfold readAscii? at h
  split at h
  · obtain ⟨_, hnat, rfl⟩ := Option.map_eq_some_iff.mp h
    obtain ⟨n, hn, hcast⟩ := Option.bind_eq_some_iff.mp hnat
    cases hcast
    rw [Int.natAbs_neg]
    exact lt_of_readUnsigned? hn
  · obtain ⟨n, hn, rfl⟩ := Option.map_eq_some_iff.mp h
    exact lt_of_readUnsigned? hn
  · obtain ⟨n, hn, rfl⟩ := Option.map_eq_some_iff.mp h
    exact lt_of_readUnsigned? hn

/-- A number that is read can be shown. -/
theorem natAbs_lt_of_read? {i : Int} (h : read? cs = some i) : i.natAbs < 10 ^ maxDigits := by
  unfold read? at h
  split at h
  · exact natAbs_lt_of_readAscii? h
  · obtain ⟨ascii, -, hascii⟩ := Option.bind_eq_some_iff.mp h
    exact natAbs_lt_of_readAscii? hascii

end Integer

namespace Error

variable {i : Int} {fault : InputFault}

theorem showing_of_lt (h : i.natAbs < 10 ^ Integer.maxDigits) : showing i fault = .input fault := by
  unfold showing
  -- the power is not to be computed
  generalize Integer.maxDigits = digits at h ⊢
  exact if_pos h

theorem showing_of_le (h : 10 ^ Integer.maxDigits ≤ i.natAbs) :
    showing i fault = .integerTooLong := by
  unfold showing
  generalize Integer.maxDigits = digits at h ⊢
  exact if_neg (not_lt.mpr h)

/-- Shown or not, it is a rejection. -/
theorem isRejection_showing (i : Int) (fault : InputFault) :
    (showing i fault).isRejection = true := by
  unfold showing
  split <;> rfl

end Error
end ChronoId
