/-
# Decoding and validating give the same verdict

Behind the same words, a word is read as the operand of one command or the
other, or of neither: what the words in front come to does not depend on which
command it is, as long as none of them is a command itself. Both commands then
have the same codec, or end without one in the same way, and decoding ends with
status zero for the identifiers of that codec, which are the valid ones.

Key definitions: `Invocation.Front`, `Invocation.Alike`.
Key theorems: `Invocation.alike_readFrom`, `CommandLine.verdict_cases`,
`CommandLine.verdicts_agree`.
-/
import ChronoId.Proofs.Codec.Answers
import ChronoId.Proofs.CommandLine.Endings

namespace ChronoId

/-! ### Words in front of a command -/

section Host

variable [Host]

theorem Word.isSome_sortAll_cons {rules : List OptionRule} {word : String} (hne : word ≠ "--")
    (words : List String) : (sortAll rules (word :: words)).isSome =
      ((sort rules word).isSome && (sortAll rules words).isSome) := by
  rw [sortAll, if_neg hne]
  cases sort rules word with
  | none => rfl
  | some w => cases sortAll rules words <;> rfl

namespace Invocation

/-- Words in front of a command, none of which stands in the place of a command:
each is an option, the value of one, or no operand. -/
inductive Front : List String → Prop
  | nil : Front []
  | dangling {word : String} {rule : OptionRule}
    (hword : Word.sort globalRules word = some (.option rule none)) : Front [word]
  | valued {word value : String} {rule : OptionRule} {words : List String}
    (hword : Word.sort globalRules word = some (.option rule none)) (hwords : Front words) :
    Front (word :: value :: words)
  | other {word : String} {words : List String}
    (hoperand : ∀ text, Word.sort globalRules word ≠ some (.operand text))
    (hoption : ∀ rule, Word.sort globalRules word ≠ some (.option rule none))
    (hwords : Front words) : Front (word :: words)

theorem Options.front {options : List String} (h : Options options) : Front options := by
  induction h with
  | nil => exact .nil
  | joined hword _ ih => exact .other (by simp [hword]) (by simp [hword]) ih
  | separate hword _ _ ih => exact .valued hword ih

/-- What is read where one of two commands stands in the place of the other. -/
inductive Alike (make make' : String → Command) : Reading Invocation → Reading Invocation → Prop
  | help : Alike make make' .help .help
  | misused : Alike make make' .misused .misused
  | read (path? epoch? : Option String) (id : String) :
    Alike make make' (.read ⟨path?, epoch?, make id⟩) (.read ⟨path?, epoch?, make' id⟩)

section Alike

variable {name name' word : String} {make make' : String → Command} {words : List String}

/-- What a command with an operand only is made of. -/
theorem readWith_make (rules : List OptionRule) (accepts : String → Bool) (make : String → Command)
    (words : List String) : readWith rules accepts (fun operand _ => some (make operand)) words =
      match readWith rules accepts (fun operand _ => some operand) words with
      | .help => .help
      | .misused => .misused
      | .read operand => .read (make operand) := by
  simp only [readWith]
  cases Word.sortAll rules words with
  | none => rfl
  | some sorted =>
    simp only
    cases Word.gather accepts (sorted.map (·.2)) {} with
    | help => rfl
    | misused => rfl
    | read g =>
      simp only
      cases g.stray with
      | true => rfl
      | false => cases g.operand? <;> rfl

theorem alike_command (hname : IsSimple name make) (hname' : IsSimple name' make') (g : Gathered)
    (words : List String) :
    Alike make make' (readFrom g (name :: words)) (readFrom g (name' :: words)) := by
  rw [readFrom_command g hname.isOperand, readFrom_command g hname'.isOperand, hname.read_eq,
    hname'.read_eq, readWith_make, readWith_make]
  cases Word.sortAll globalRules words with
  | none => exact .misused
  | some sorted =>
    simp only
    cases readWith [] (fun _ => true) (fun operand _ => some operand) words with
    | help => exact .help
    | misused => exact .misused
    | read operand =>
      simp only
      cases g.stray with
      | true => exact .misused
      | false => exact .read _ _ operand

theorem readCommand_nil (name : String) : readCommand name [] = .misused := by
  unfold readCommand
  split
  · rfl
  · split
    · rfl
    · split
      · rfl
      · split <;> rfl

/-- A single word is no command with an operand, so it does not matter what was
gathered in front of it. -/
theorem alike_last (g g' : Gathered) (word : String) :
    Alike make make' (readFrom g [word]) (readFrom g' [word]) := by
  by_cases hne : word = "--"
  · rw [hne]
    exact .misused
  simp only [readFrom, Word.sortAll, if_neg hne]
  cases Word.sort globalRules word with
  | none => exact .misused
  | some w =>
    simp only [Option.bind_eq_bind, Option.bind_some]
    cases w with
    | operand text =>
      simp only [readSorted, List.map_nil, readCommand_nil]
      exact .misused
    | terminator => exact .misused
    | help => exact .help
    | helpMisused => exact .misused
    | option rule value? => cases value? <;> exact .misused
    | unknown => exact .misused

/-! ### Words one by one -/

theorem readFrom_of_ambiguous (hne : word ≠ "--") (h : Word.sort globalRules word = none)
    (g : Gathered) (words : List String) : readFrom g (word :: words) = .misused := by
  rw [readFrom, Word.sortAll, if_neg hne, h]
  rfl

theorem readFrom_sorted {w : Word} (h : Word.sort globalRules word = some w) (g : Gathered)
    (words : List String) : readFrom g (word :: words) =
      match Word.sortAll globalRules words with
      | none => .misused
      | some sorted => readSorted ((word, w) :: sorted) g := by
  rw [readFrom, Word.sortAll_cons (ne_terminator_of_sort h) h]
  cases Word.sortAll globalRules words <;> rfl

theorem readFrom_unknown (h : Word.sort globalRules word = some .unknown) (g : Gathered)
    (words : List String) :
    readFrom g (word :: words) = readFrom { g with stray := true } words := by
  rw [readFrom_sorted h, readFrom]
  cases Word.sortAll globalRules words <;> rfl

theorem readFrom_misused {w : Word} (h : Word.sort globalRules word = some w)
    (hw : w = .terminator ∨ w = .helpMisused) (g : Gathered) (words : List String) :
    readFrom g (word :: words) = .misused := by
  rw [readFrom_sorted h]
  rcases hw with rfl | rfl <;> cases Word.sortAll globalRules words <;> rfl

/-- Help is given unless a word behind could be two options. -/
theorem readFrom_help (h : Word.sort globalRules word = some .help) (g : Gathered)
    (words : List String) : readFrom g (word :: words) =
      if (Word.sortAll globalRules words).isSome then .help else .misused := by
  rw [readFrom_sorted h]
  cases Word.sortAll globalRules words <;> rfl

/-- A word that is no operand and needs no value adds to what is gathered, or is
an error, or asks for help. -/
theorem readFrom_other (hoperand : ∀ text, Word.sort globalRules word ≠ some (.operand text))
    (hoption : ∀ rule, Word.sort globalRules word ≠ some (.option rule none)) (g : Gathered) :
    (∃ g', ∀ words, readFrom g (word :: words) = readFrom g' words) ∨
      (∀ words, readFrom g (word :: words) = .misused) ∨
        ∀ words, readFrom g (word :: words) =
          if (Word.sortAll globalRules words).isSome then .help else .misused := by
  by_cases hne : word = "--"
  · rw [hne]
    exact .inr (.inl fun _ => rfl)
  cases hsort : Word.sort globalRules word with
  | none => exact .inr (.inl (readFrom_of_ambiguous hne hsort g))
  | some w =>
    cases w with
    | operand text => exact absurd hsort (hoperand text)
    | terminator => exact .inr (.inl (readFrom_misused hsort (.inl rfl) g))
    | help => exact .inr (.inr (readFrom_help hsort g))
    | helpMisused => exact .inr (.inl (readFrom_misused hsort (.inr rfl) g))
    | option rule value? =>
      cases value? with
      | none => exact absurd hsort (hoption rule)
      | some value => exact .inl ⟨_, readFrom_joined hsort⟩
    | unknown => exact .inl ⟨_, readFrom_unknown hsort g⟩

/-- An option whose value is no operand has none. -/
theorem readFrom_valueless {value : String} {rule : OptionRule}
    (h : Word.sort globalRules word = some (.option rule none))
    (hvalue : ∀ text, Word.sort globalRules value ≠ some (.operand text)) (g : Gathered)
    (words : List String) : readFrom g (word :: value :: words) = .misused := by
  rw [readFrom_sorted h]
  by_cases hne : value = "--"
  · rw [hne]
    rfl
  rw [Word.sortAll, if_neg hne]
  cases hsort : Word.sort globalRules value with
  | none => rfl
  | some w =>
    cases Word.sortAll globalRules words with
    | none => rfl
    | some sorted =>
      cases w with
      | operand text => exact absurd hsort (hvalue text)
      | _ => rfl

/-- Only what is sorted decides whether there is a word that could be two
options. -/
theorem isSome_sortAll_append {rules : List OptionRule} {w w' : Word} (hne : name ≠ "--")
    (hne' : name' ≠ "--") (hname : Word.sort rules name = some w)
    (hname' : Word.sort rules name' = some w') (words : List String) : ∀ front : List String,
    (Word.sortAll rules (front ++ name :: words)).isSome =
      (Word.sortAll rules (front ++ name' :: words)).isSome
  | [] => by
    rw [List.nil_append, List.nil_append, Word.isSome_sortAll_cons hne,
      Word.isSome_sortAll_cons hne', hname, hname']
    rfl
  | word :: front => by
    by_cases hword : word = "--"
    · rw [hword]
      rfl
    · rw [List.cons_append, List.cons_append, Word.isSome_sortAll_cons hword,
        Word.isSome_sortAll_cons hword, isSome_sortAll_append hne hne' hname hname' words front]

/-! ### Words in front -/

/-- Behind words that are not commands, two commands with an operand only are
read alike. -/
theorem alike_readFrom (hname : IsSimple name make) (hname' : IsSimple name' make')
    {front : List String} (h : Front front) (g : Gathered) (word : String) :
    Alike make make' (readFrom g (front ++ [name, word]))
      (readFrom g (front ++ [name', word])) := by
  induction h generalizing g with
  | nil => exact alike_command hname hname' g [word]
  | dangling hword =>
    -- The name of the command is the value of the option.
    rw [List.singleton_append, List.singleton_append, readFrom_separate hword hname.isOperand,
      readFrom_separate hword hname'.isOperand]
    exact alike_last _ _ word
  | @valued option value rule words hword _ ih =>
    rw [List.cons_append, List.cons_append, List.cons_append, List.cons_append]
    by_cases hvalue : ∃ text, Word.sort globalRules value = some (.operand text)
    · obtain ⟨text, hvalue⟩ := hvalue
      rw [readFrom_separate hword hvalue, readFrom_separate hword hvalue]
      exact ih _
    · rw [not_exists] at hvalue
      rw [readFrom_valueless hword hvalue, readFrom_valueless hword hvalue]
      exact .misused
  | other hoperand hoption _ ih =>
    rw [List.cons_append, List.cons_append]
    rcases readFrom_other hoperand hoption g with ⟨g', hnext⟩ | hmisused | hhelp
    · rw [hnext, hnext]
      exact ih g'
    · rw [hmisused, hmisused]
      exact .misused
    · rw [hhelp, hhelp, isSome_sortAll_append (ne_terminator_of_sort hname.isOperand)
        (ne_terminator_of_sort hname'.isOperand) hname.isOperand hname'.isOperand]
      split
      · exact .help
      · exact .misused

end Alike

end Invocation

end Host

/-! ### Verdicts -/

namespace CommandLine

open Outcome

variable {env : List (String × String)} {files : String → FileAnswer} {c : Codec}

section Host

variable [Host]

/-- What a codec decodes is printed, and it is what the codec finds valid. -/
theorem verdict_cases {n : Numeral} (hn : c.Uses n) (id : String) :
    (∃ y, (c.decode (.text id)).result = .ok (some y) ∧ decode c id = .ok (.printed y.json) ∧
        validate c id = .ok (.verdict true)) ∨
      (c.decode (.text id)).result = .ok none ∧
        decode c id = .ok (.refused ("Invalid identifier '" ++ id ++ "'")) ∧
        validate c id = .ok (.verdict false) := by
  rcases Codec.decode_cases hn.refuses (.text id) with ⟨y, -, hy⟩ | ⟨why, -, hnone⟩
  · refine Or.inl ⟨y, by rw [hy], ?_, ?_⟩
    · rw [decode, hy]
      rfl
    · rw [validate, Codec.isValid_of_decode_eq hy]
      rfl
  · refine Or.inr ⟨by rw [hnone], ?_, ?_⟩
    · rw [decode, hnone]
      rfl
    · rw [validate, Codec.isValid_of_decode_eq hnone]
      rfl

section Runs

variable {words words' : List String} {path? epoch? : Option String} {id : String}
  (now now' : DateTime)

/-- Two runs with the same codec come to the same verdict. -/
theorem runs_of_loadCodec (hread : Invocation.read words = .read ⟨path?, epoch?, .decode id⟩)
    (hread' : Invocation.read words' = .read ⟨path?, epoch?, .validate id⟩)
    (hc : loadCodec ⟨path?, epoch?, .decode id⟩ env files = .ok c) :
    (∃ y, (c.decode (.text id)).result = .ok (some y) ∧
        run words env files now = .printed y.json ∧
        run words' env files now' = .verdict true) ∨
      (c.decode (.text id)).result = .ok none ∧
        run words env files now = .refused ("Invalid identifier '" ++ id ++ "'") ∧
        run words' env files now' = .verdict false := by
  obtain ⟨⟨n, hn⟩, -⟩ := parts_of_loadCodec hc
  have hdecoded : run words env files now = ended (decode c id) := by
    rw [run_of_read hread]
    show ended (loadCodec ⟨path?, epoch?, .decode id⟩ env files >>= fun c => decode c id) = _
    rw [hc, bind_ok]
  have hvalidated : run words' env files now' = ended (validate c id) := by
    rw [run_of_read hread']
    show ended (loadCodec ⟨path?, epoch?, .decode id⟩ env files >>= fun c => validate c id) = _
    rw [hc, bind_ok]
  rw [hdecoded, hvalidated]
  rcases verdict_cases hn id with ⟨y, hy, hdecode, hvalidate⟩ | ⟨hnone, hdecode, hvalidate⟩
  · rw [hdecode, hvalidate]
    exact Or.inl ⟨y, hy, rfl, rfl⟩
  · rw [hdecode, hvalidate]
    exact Or.inr ⟨hnone, rfl, rfl⟩

/-- Without a codec they end in the same way. -/
theorem runs_of_loadCodec_eq_error {o : Outcome}
    (hread : Invocation.read words = .read ⟨path?, epoch?, .decode id⟩)
    (hread' : Invocation.read words' = .read ⟨path?, epoch?, .validate id⟩)
    (hload : loadCodec ⟨path?, epoch?, .decode id⟩ env files = .error o) :
    run words env files now = o ∧ run words' env files now' = o :=
  ⟨run_of_loadCodec_eq_error hread trivial hload, run_of_loadCodec_eq_error hread' trivial hload⟩

end Runs

/-- Behind the same words in front, a word is decoded with the same status with
which it is validated. It is the operand of both commands or of neither. If it
is, and there is a codec, then the status is zero for the identifiers of the
codec, and one for other words, of which decoding prints nothing. -/
theorem verdicts_agree {front : List String} (hfront : Invocation.Front front) (word : String)
    (now now' : DateTime) :
    (run (front ++ ["decode", word]) env files now).status? =
        (run (front ++ ["validate", word]) env files now').status? ∧
      ∀ path? epoch?,
        (Invocation.read (front ++ ["decode", word]) = .read ⟨path?, epoch?, .decode word⟩ ↔
          Invocation.read (front ++ ["validate", word]) =
            .read ⟨path?, epoch?, .validate word⟩) ∧
        ∀ c, Invocation.read (front ++ ["decode", word]) = .read ⟨path?, epoch?, .decode word⟩ →
          loadCodec ⟨path?, epoch?, .decode word⟩ env files = .ok c →
          (∃ y, (c.decode (.text word)).result = .ok (some y) ∧
              run (front ++ ["decode", word]) env files now = .printed y.json ∧
              run (front ++ ["validate", word]) env files now' = .verdict true) ∨
            (c.decode (.text word)).result = .ok none ∧
              run (front ++ ["decode", word]) env files now =
                .refused ("Invalid identifier '" ++ word ++ "'") ∧
              run (front ++ ["validate", word]) env files now' = .verdict false := by
  have halike : Invocation.Alike .decode .validate (Invocation.read (front ++ ["decode", word]))
      (Invocation.read (front ++ ["validate", word])) :=
    Invocation.alike_readFrom Invocation.isSimple_decode Invocation.isSimple_validate hfront {} word
  constructor
  · generalize hread : Invocation.read (front ++ ["decode", word]) = r at halike
    generalize hread' : Invocation.read (front ++ ["validate", word]) = r' at halike
    cases halike with
    | help => rw [run, run, hread, hread']
    | misused => rw [run, run, hread, hread']
    | read path? epoch? id =>
      cases hload : loadCodec ⟨path?, epoch?, .decode id⟩ env files with
      | error o =>
        obtain ⟨hdecoded, hvalidated⟩ :=
          runs_of_loadCodec_eq_error now now' hread hread' hload
        rw [hdecoded, hvalidated]
      | ok c =>
        obtain ⟨y, -, hdecoded, hvalidated⟩ | ⟨-, hdecoded, hvalidated⟩ :=
          runs_of_loadCodec now now' hread hread' hload
        · rw [hdecoded, hvalidated]
          rfl
        · rw [hdecoded, hvalidated]
          rfl
  · intro path? epoch?
    have hiff : Invocation.read (front ++ ["decode", word]) =
          .read ⟨path?, epoch?, .decode word⟩ ↔
        Invocation.read (front ++ ["validate", word]) = .read ⟨path?, epoch?, .validate word⟩ := by
      generalize Invocation.read (front ++ ["decode", word]) = r at halike
      generalize Invocation.read (front ++ ["validate", word]) = r' at halike
      cases halike with
      | help => simp
      | misused => simp
      | read path? epoch? id => simp
    exact ⟨hiff, fun c hread hc => runs_of_loadCodec now now' hread (hiff.mp hread) hc⟩

end Host

section Ample

attribute [local instance] Host.ample

/-- With an epoch and the default settings, the first of two texts is the
identifier of the epoch and the sequence seven, and the second is none. -/
theorem verdicts_agree_epoch : ∃ c y,
    loadCodec ⟨none, some "0001-01-01", .decode "0000000002f"⟩ [] (fun _ => .missing) = .ok c ∧
      (c.decode (.text "0000000002f")).result = .ok (some y) ∧
      run ["--epoch", "0001-01-01", "decode", "0000000002f"] [] (fun _ => .missing)
        ⟨.start, none⟩ = .printed y.json ∧
      run ["--epoch", "0001-01-01", "validate", "0000000002f"] [] (fun _ => .missing)
        ⟨.start, none⟩ = .verdict true ∧
      run ["--epoch", "0001-01-01", "decode", "0000000002e"] [] (fun _ => .missing)
        ⟨.start, none⟩ = .refused "Invalid identifier '0000000002e'" ∧
      run ["--epoch", "0001-01-01", "validate", "0000000002e"] [] (fun _ => .missing)
        ⟨.start, none⟩ = .verdict false := by
  have hloads : (loadCodec ⟨none, some "0001-01-01", .decode "0000000002f"⟩ []
      (fun _ => .missing)).isOk = true := by decide +kernel
  have hvalid : (run ["--epoch", "0001-01-01", "validate", "0000000002f"] []
      (fun _ => .missing) ⟨.start, none⟩).status? = some 0 := by decide +kernel
  have hinvalid : (run ["--epoch", "0001-01-01", "validate", "0000000002e"] []
      (fun _ => .missing) ⟨.start, none⟩).status? = some 1 := by decide +kernel
  obtain ⟨c, hc⟩ := exists_of_isOk hloads
  have hfront : Invocation.Front ["--epoch", "0001-01-01"] :=
    (Invocation.Options.separate rfl rfl .nil).front
  have hagree (word : String) := (@verdicts_agree [] (fun _ => .missing) _ _ hfront word
    ⟨.start, none⟩ ⟨.start, none⟩).2 none (some "0001-01-01")
  obtain ⟨y, hy, hdecoded, hvalidated⟩ | ⟨-, -, hvalidated⟩ :=
    (hagree "0000000002f").2 c rfl hc
  · obtain ⟨-, -, -, hvalidated'⟩ | ⟨-, hdecoded', hvalidated'⟩ :=
      (hagree "0000000002e").2 c rfl hc
    · cases (congrArg status? hvalidated').symm.trans hinvalid
    · exact ⟨c, y, hc, hy, hdecoded, hvalidated, hdecoded', hvalidated'⟩
  · cases (congrArg status? hvalidated).symm.trans hvalid

end Ample

end CommandLine
end ChronoId
