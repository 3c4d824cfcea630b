/-
# Settings of an environment

It makes no difference whether a settings text stands in a file or in a
variable, although only the line ends of a file are unified: JSON does not
depend on them. Where a file is named, the variable with the text is not
looked at, whatever is found under the name.

What an environment gives has its types. There are three ways to crash instead:
something else than a file is found under the name, the file is not UTF-8, or
the text has more brackets inside one another than the host takes.

Key definitions: `Settings.TextOf`, `Settings.Unread`.
Key theorems: `Settings.textOfFile_contents`, `Settings.ofText_unifyLineEnds`,
`Settings.ofEnvironment_file`, `Settings.crashes_ofEnvironment_iff`,
`Settings.typed_of_ofEnvironment`.
-/
import ChronoId.Proofs.Json.LineEnds
import ChronoId.Proofs.Settings.Source

namespace ChronoId
namespace Settings

variable {env : List (String × String)} {files : String → FileAnswer} {path text : String}

/-! ### Variables -/

theorem given?_of_lookup {name value : String} (h : env.lookup name = some value)
    (hvalue : value ≠ "") : given? env name = some value := by
  rw [given?, h]
  exact if_neg (by simpa using hvalue)

/-- A variable is not found through another one. -/
theorem given?_cons_of_ne {name other value : String} (h : name ≠ other) :
    given? ((other, value) :: env) name = given? env name := by
  rw [given?, given?, List.lookup_cons, (beq_eq_false_iff_ne).mpr h]

/-! ### Texts -/

theorem textOfFile_contents (path text : String) :
    textOfFile path (.contents text.toUTF8) =
      .ok (String.ofList (unifyLineEnds text.toList)) := by
  have hread : String.fromUTF8? text.toUTF8 = some text := dif_pos text.isValidUTF8
  rw [textOfFile, hread]

section Host

variable [Host]

theorem ofText_unifyLineEnds (text : String) :
    ofText (String.ofList (unifyLineEnds text.toList)) = ofText text := by
  rw [ofText, Json.read_unifyLineEnds, ofText]

/-! ### Environments -/

theorem ofEnvironment_of_file (h : given? env fileVariable = some path) :
    ofEnvironment env files = (textOfFile path (files path) >>= ofText) := by
  rw [ofEnvironment, h]

theorem ofEnvironment_of_text (hfile : given? env fileVariable = none)
    (htext : given? env textVariable = some text) : ofEnvironment env files = ofText text := by
  rw [ofEnvironment, hfile, htext]

/-- A settings text means the same in a file as in a variable, and where a file is
named, no text in a variable counts. -/
theorem ofEnvironment_file {env' : List (String × String)} {files' : String → FileAnswer}
    (hpath : path ≠ "") (htext : text ≠ "") (hnamed : env.lookup fileVariable = some path)
    (hfile : files path = .contents text.toUTF8) (hunnamed : given? env' fileVariable = none)
    (hset : env'.lookup textVariable = some text) :
    ofEnvironment env files = ofEnvironment env' files' ∧
      ∀ value files, ofEnvironment ((textVariable, value) :: env) files =
        ofEnvironment env files := by
  have hgiven : given? env fileVariable = some path := given?_of_lookup hnamed hpath
  refine ⟨?_, fun value files => ?_⟩
  · rw [ofEnvironment_of_file hgiven, hfile, textOfFile_contents, bind_ok, ofText_unifyLineEnds,
      ofEnvironment_of_text hunnamed (given?_of_lookup hset htext)]
  · have hstill : given? ((textVariable, value) :: env) fileVariable = some path := by
      rw [given?_cons_of_ne (by decide), hgiven]
    rw [ofEnvironment_of_file hstill, ofEnvironment_of_file hgiven]

end Host

section Ample

attribute [local instance] Host.ample

theorem ofEnvironment_file_returns :
    let text := "\x7b\r\n\"subsecond_bits\":\r4\r\n\x7d"
    let files := fun _ => FileAnswer.contents text.toUTF8
    let env := [(textVariable, "[]"), (fileVariable, "settings.json")]
    (ofEnvironment env files).isOk = true ∧
      ofEnvironment env files = ofEnvironment [(textVariable, text)] (fun _ => .missing) ∧
      ∀ value files, ofEnvironment ((textVariable, value) :: env) files =
        ofEnvironment env files :=
  ⟨by decide +kernel,
    ofEnvironment_file (by decide) (by decide) rfl rfl (by decide) rfl⟩

end Ample

/-! ### Environments that cannot be read -/

/-- Members of an object make settings or are refused. -/
theorem not_crashes_ofMembers (members : List (String × Value)) (e : Error) :
    ¬ Crashes (ofMembers members) e := by
  obtain ⟨s, -, -, hs⟩ | ⟨fault, hfault⟩ := ofMembers_cases members
  · exact hs ▸ not_crashes_ok s
  · exact hfault ▸ not_crashes_of_isOwn rfl

theorem crashes_textOfFile_iff {answer : FileAnswer} {e : Error} :
    Crashes (textOfFile path answer) e ↔
      (∃ problem, answer = .unreadable problem ∧ e = .settingsFile problem) ∨
        ∃ bytes, answer = .contents bytes ∧ ¬ bytes.IsValidUTF8 ∧ e = .settingsFile .notText := by
  cases answer with
  | missing => exact iff_of_false (not_crashes_of_isOwn rfl) (by simp)
  | unreadable problem =>
    rw [textOfFile, crashes_error_iff rfl]
    simp
  | contents bytes =>
    rw [textOfFile, String.fromUTF8?]
    by_cases hbytes : bytes.IsValidUTF8
    · rw [dif_pos hbytes]
      exact iff_of_false (not_crashes_ok _) (by simpa using fun h => absurd hbytes h)
    · rw [dif_neg hbytes]
      simpa [hbytes] using crashes_error_iff rfl

/-- The text that is to hold the settings. -/
inductive TextOf (env : List (String × String)) (files : String → FileAnswer) : String → Prop
  | ofFile {path text : String} (hnamed : given? env fileVariable = some path)
    (hfile : textOfFile path (files path) = .ok text) : TextOf env files text
  | ofVariable {text : String} (hunnamed : given? env fileVariable = none)
    (hset : given? env textVariable = some text) : TextOf env files text

section Host

variable [Host]

theorem crashes_ofText_iff {e : Error} :
    Crashes (ofText text) e ↔ Json.read text = .error .tooDeep ∧ e = .settingsTooDeep := by
  unfold ofText
  split
  · next h => exact iff_of_false (not_crashes_of_isOwn rfl) fun h' => nomatch h.symm.trans h'.1
  · next h => rw [crashes_error_iff rfl, h, and_iff_right rfl]
  · next members h =>
    exact iff_of_false (not_crashes_ofMembers members e) fun h' => nomatch h.symm.trans h'.1
  · next h => exact iff_of_false (not_crashes_of_isOwn rfl) fun h' => nomatch h.symm.trans h'.1

/-- Why there are no settings, other than that they are refused. -/
inductive Unread (env : List (String × String)) (files : String → FileAnswer) : Error → Prop
  | unreadable {path : String} {problem : FileProblem}
    (hnamed : given? env fileVariable = some path) (hfile : files path = .unreadable problem) :
    Unread env files (.settingsFile problem)
  | notText {path : String} {bytes : ByteArray} (hnamed : given? env fileVariable = some path)
    (hfile : files path = .contents bytes) (hbytes : ¬ bytes.IsValidUTF8) :
    Unread env files (.settingsFile .notText)
  | tooDeep {text : String} (htext : TextOf env files text)
    (hread : Json.read text = .error .tooDeep) : Unread env files .settingsTooDeep

theorem crashes_ofEnvironment_iff {e : Error} :
    Crashes (ofEnvironment env files) e ↔ Unread env files e := by
  constructor
  · intro h
    cases hfile : given? env fileVariable with
    | some path =>
      rw [ofEnvironment_of_file hfile, crashes_bind_iff, crashes_textOfFile_iff] at h
      obtain (⟨problem, hanswer, rfl⟩ | ⟨bytes, hanswer, hbytes, rfl⟩) | ⟨text, htext, h⟩ := h
      · exact .unreadable hfile hanswer
      · exact .notText hfile hanswer hbytes
      · obtain ⟨hread, rfl⟩ := crashes_ofText_iff.mp h
        exact .tooDeep (.ofFile hfile htext) hread
    | none =>
      cases htext : given? env textVariable with
      | some text =>
        rw [ofEnvironment_of_text hfile htext, crashes_ofText_iff] at h
        obtain ⟨hread, rfl⟩ := h
        exact .tooDeep (.ofVariable hfile htext) hread
      | none =>
        rw [ofEnvironment, hfile, htext] at h
        exact absurd h (not_crashes_ok _)
  · intro h
    cases h with
    | unreadable hfile hanswer =>
      rw [ofEnvironment_of_file hfile, crashes_bind_iff, crashes_textOfFile_iff]
      exact Or.inl (Or.inl ⟨_, hanswer, rfl⟩)
    | notText hfile hanswer hbytes =>
      rw [ofEnvironment_of_file hfile, crashes_bind_iff, crashes_textOfFile_iff]
      exact Or.inl (Or.inr ⟨_, hanswer, hbytes, rfl⟩)
    | tooDeep htext hread =>
      have hdeep := crashes_ofText_iff.mpr ⟨hread, rfl⟩
      cases htext with
      | ofFile hfile htext =>
        rw [ofEnvironment_of_file hfile, crashes_bind_iff]
        exact Or.inr ⟨_, htext, hdeep⟩
      | ofVariable hfile htext =>
        rw [ofEnvironment_of_text hfile htext]
        exact hdeep

theorem typed_of_ofText {s : Settings} (h : ofText text = .ok s) :
    ∃ t : SettingsFields.Typed, s.toSettingsFields = t.fields := by
  unfold ofText at h
  split at h
  · cases h
  · cases h
  · next members _ =>
    obtain ⟨s', t, ht, hs⟩ | ⟨fault, hfault⟩ := ofMembers_cases members
    · cases hs.symm.trans h
      exact ⟨t, ht⟩
    · cases hfault.symm.trans h
  · cases h

/-- Settings of an environment have their types. -/
theorem typed_of_ofEnvironment {s : Settings} (h : ofEnvironment env files = .ok s) :
    ∃ t : SettingsFields.Typed, s.toSettingsFields = t.fields := by
  unfold ofEnvironment at h
  split at h
  · obtain ⟨text, -, h⟩ := bind_eq_ok_iff.mp h
    exact typed_of_ofText h
  · split at h
    · exact typed_of_ofText h
    · cases h
      exact ⟨defaultTyped, rfl⟩

end Host

end Settings
end ChronoId
